import FileSharing.Database.Advance
import FileSharing.Database.Layout
import FileSharing.Database.Repetition

/-! The way of a message that has arrived: to D, to the own system, or on to another one. -/

namespace FileSharing

open Library RunJobs

namespace Routing

/-- The hash of a message is the text of what follows it. -/
def Accepted (data : Bytea) : Prop := data.take 32 = md5 (data.drop 32)

def Answered (data : Bytea) : Prop :=
  messageType data = typeField "4" ∨ messageType data = typeField "5"

/-- What a pass makes of a job in N-1. -/
structure Routed (db : Db) (old new : Job) : Prop where
  jobdata : new.jobdata = old.jobdata
  rejected : new.jstate = .D ↔ ¬ Accepted old.jobdata
  own : Accepted old.jobdata → messageDestination old.jobdata ∈ rootDestinations db →
    new.jtype = messageType old.jobdata ∧
      (Answered old.jobdata ∧ new.jstate = .C ∨ ¬ Answered old.jobdata ∧ new.jstate = .N4)
  other : Accepted old.jobdata → messageDestination old.jobdata ∉ rootDestinations db →
    new.jdestination = messageDestination old.jobdata ∧ Promotes every .S1 new.jstate

/-- After a pass no job is incoming any more, and each job in N-1 has been routed. -/
structure Routes (db db' : Db) : Prop where
  settled : ∀ job ∈ db'.jobScheduler, ¬ Incoming job.jstate
  routed : ∀ old ∈ db.jobScheduler, old.jstate = .N1 →
    ∃ new ∈ db'.jobScheduler, new.jobid = old.jobid ∧ Routed db old new

section Hash

theorem encode_eq_iff {data : Bytea} {text : Text} (clean : Clean text) :
    encode data = text ↔ data = text := by
  constructor
  · intro same
    have known : Clean data := by
      intro c member
      by_contra dirty
      have escaped : 92 ∈ encodeByte c := by
        unfold encodeByte
        split
        · exact List.mem_cons_self
        · next low =>
            rw [not_or, UInt8.not_le] at low
            split
            · exact List.mem_cons_self
            · next other => exact absurd (by simp [FileSharing.clean, low, other]) dirty
      have inside : 92 ∈ encode data := List.mem_flatMap.mpr ⟨c, member, escaped⟩
      rw [same] at inside
      exact absurd (clean 92 inside) (by decide)
    rwa [encode_clean known] at same
  · intro same
    rw [same, encode_clean clean]

theorem hashMatches_iff (data : Bytea) : hashMatches data = true ↔ Accepted data := by
  rw [hashMatches, decide_eq_true_eq, encode_eq_iff (plain_md5 _).clean]
  rfl

end Hash

section Rows

variable {db : Db} {job : Job}

variable {condition : Job → Bool} {change : Job → Job}

theorem update_changes (member : job ∈ db.jobScheduler) (holds : condition job = true) :
    change job ∈ (db.updateJobs condition change).jobScheduler :=
  List.mem_map.mpr ⟨job, member, if_pos holds⟩

theorem update_leaves (member : job ∈ db.jobScheduler) (spared : condition job = false) :
    job ∈ (db.updateJobs condition change).jobScheduler :=
  List.mem_map.mpr ⟨job, member, if_neg (by rw [spared]; exact Bool.false_ne_true)⟩

theorem rootDestinations_checkHash (db : Db) :
    rootDestinations (checkHash db) = rootDestinations db := by
  rw [checkHash, Repetition.rootDestinations_update, Repetition.rootDestinations_update]

theorem route_eq (db : Db) : route db = forward (arrive db) := rfl

theorem rootDestinations_arrive (db : Db) : rootDestinations (arrive db) = rootDestinations db :=
  Repetition.rootDestinations_update _ _

theorem receive_rejects (member : job ∈ db.jobScheduler) (state : job.jstate = .N1)
    (wrong : hashMatches job.jobdata = false) :
    { job with jstate := .D } ∈ (receive db).jobScheduler := by
  have accepted : job ∈ (acceptHash db).jobScheduler := update_leaves member (by simp [wrong])
  have rejected : { job with jstate := .D } ∈ (checkHash db).jobScheduler :=
    update_changes accepted (by simp [state, wrong])
  have arrived : { job with jstate := .D } ∈ (arrive (checkHash db)).jobScheduler :=
    update_leaves rejected (by simp)
  have routed : { job with jstate := .D } ∈ (route (checkHash db)).jobScheduler := by
    rw [route_eq]
    exact update_leaves arrived (by simp)
  exact update_leaves routed (by simp)

theorem checkHash_accepts (member : job ∈ db.jobScheduler) (state : job.jstate = .N1)
    (right : hashMatches job.jobdata = true) :
    { job with jstate := .N2 } ∈ (checkHash db).jobScheduler := by
  have accepted : { job with jstate := .N2 } ∈ (acceptHash db).jobScheduler :=
    update_changes member (by simp [state, right])
  exact update_leaves accepted (by simp)

theorem receive_own (member : job ∈ db.jobScheduler) (state : job.jstate = .N1)
    (right : hashMatches job.jobdata = true)
    (own : messageDestination job.jobdata ∈ rootDestinations db) :
    { job with jstate := .N4, jtype := messageType job.jobdata } ∈ (receive db).jobScheduler := by
  have accepted := checkHash_accepts member state right
  have arrived : { job with jstate := .N3 } ∈ (arrive (checkHash db)).jobScheduler :=
    @update_changes _ { job with jstate := .N2 } _ _ accepted
      (by simp [rootDestinations_checkHash, own])
  have routed : { job with jstate := .N3 } ∈ (route (checkHash db)).jobScheduler := by
    rw [route_eq]
    exact update_leaves arrived (by simp)
  exact @update_changes _ { job with jstate := .N3 } _ _ routed (by simp)

theorem receive_other (member : job ∈ db.jobScheduler) (state : job.jstate = .N1)
    (right : hashMatches job.jobdata = true)
    (other : messageDestination job.jobdata ∉ rootDestinations db) :
    { job with jstate := .S1, jdestination := messageDestination job.jobdata } ∈
      (receive db).jobScheduler := by
  have accepted := checkHash_accepts member state right
  have arrived : { job with jstate := .N2 } ∈ (arrive (checkHash db)).jobScheduler :=
    update_leaves accepted (by simp [rootDestinations_checkHash, other])
  have routed : { job with jstate := .S1, jdestination := messageDestination job.jobdata } ∈
      (route (checkHash db)).jobScheduler := by
    rw [route_eq]
    exact @update_changes _ { job with jstate := .N2 } _ _ arrived
      (by simp [rootDestinations_arrive, rootDestinations_checkHash, other])
  exact update_leaves routed (by simp)

end Rows

section Pass

variable {env : Env} {db db' : Db}

def Stands (job : Job) : Prop :=
  job.jstate = .N4 ∧ job.jtype ≠ typeField "4" ∧ job.jtype ≠ typeField "5"

theorem updateM_leaves {condition : Job → Sql Bool} {change : Job → Job} {job : Job}
    (member : job ∈ db.jobScheduler) (spared : condition job = .ok false)
    (done : db.updateJobsM condition change = .ok db') : job ∈ db'.jobScheduler := by
  rw [(updateJobsM_ok done).2.2]
  exact List.mem_map.mpr ⟨job, member, if_neg (by rw [spared]; simp)⟩

theorem insert_leaves {rows : List Job} {job : Job} (member : job ∈ db.jobScheduler)
    (done : db.insertJobs rows = .ok db') : job ∈ db'.jobScheduler := by
  rw [(insertJobs_ok done).1]
  exact List.mem_append_left rows member

theorem splitJobs_leaves {job : Job} (stands : Stands job) (member : job ∈ db.jobScheduler)
    (done : splitJobs env db = .ok db') : job ∈ db'.jobScheduler := by
  obtain ⟨state, -, -⟩ := stands
  unfold splitJobs at done
  obtain ⟨a, split, rest⟩ := bind_ok.mp done
  obtain ⟨b, single, rest⟩ := bind_ok.mp rest
  obtain ⟨c, singles, rest⟩ := bind_ok.mp rest
  obtain ⟨d, chunks, rest⟩ := bind_ok.mp rest
  obtain ⟨e, infos, last⟩ := bind_ok.mp rest
  obtain rfl := pure_ok.mp last
  have first : job ∈ a.jobScheduler :=
    updateM_leaves member (if_neg (by rw [state]; exact nofun)) split
  have second : job ∈ b.jobScheduler :=
    updateM_leaves first (if_neg (by rw [state]; exact nofun)) single
  have third : job ∈ c.jobScheduler := by
    obtain ⟨rows, -, rest⟩ := bind_ok.mp singles
    obtain ⟨jobs, -, inserted⟩ := bind_ok.mp rest
    exact insert_leaves second inserted
  have fourth : job ∈ d.jobScheduler := by
    obtain ⟨rows, -, rest⟩ := bind_ok.mp chunks
    obtain ⟨parts, -, rest⟩ := bind_ok.mp rest
    obtain ⟨jobs, -, inserted⟩ := bind_ok.mp rest
    exact insert_leaves third inserted
  have fifth : job ∈ e.jobScheduler := by
    obtain ⟨rows, -, rest⟩ := bind_ok.mp infos
    obtain ⟨jobs, -, inserted⟩ := bind_ok.mp rest
    exact insert_leaves fourth inserted
  have sixth : job ∈ (awaitSplit e).jobScheduler := update_leaves fifth (by simp [state])
  exact update_leaves sixth (by simp [state])

theorem answerRequests_leaves {job : Job} (other : job.jtype ≠ typeField "4")
    (member : job ∈ db.jobScheduler) (done : answerRequests env db = .ok db') :
    job ∈ db'.jobScheduler := by
  rcases answerRequests_ok done with ⟨-, rfl⟩ | ⟨request, r, reply, u, v, -, -, written, -,
    inserted, rfl⟩
  · exact update_leaves member (by simp [other])
  · have kept : job ∈ u.jobScheduler := (upsertSysinfo_frame written).jobScheduler ▸ member
    have appended : job ∈ v.jobScheduler := by
      rw [(insertJob_ok inserted).1]
      exact List.mem_append_left _ kept
    exact update_leaves appended (by simp [other])

theorem identified_leaves {job : Job} {u t b x y : Db}
    (stages : Repetition.Stages env db u t b x y db') (state : job.jstate = .N4)
    (member : job ∈ (receive db).jobScheduler) : job ∈ (startKnown t).jobScheduler := by
  have first : job ∈ u.jobScheduler := by
    rcases completeSplit_ok stages.completed with ⟨-, rfl⟩ | ⟨parents, -, rfl⟩
    · exact member
    · exact update_leaves member (by simp [state])
  have second : job ∈ (completeSingle u).jobScheduler := update_leaves first (by simp [state])
  have third : job ∈ t.jobScheduler := by
    obtain ⟨rows, -, inserted⟩ := bind_ok.mp stages.requested
    exact insert_leaves second inserted
  exact update_leaves third (by simp [state])

theorem pass_leaves {job : Job} {u t b x y : Db} (stages : Repetition.Stages env db u t b x y db')
    (stands : Stands job) (member : job ∈ (receive db).jobScheduler) :
    job ∈ db'.jobScheduler := by
  have known := identified_leaves stages stands.1 member
  have answered := answerRequests_leaves stands.2.1 known stages.answered
  have replied : job ∈ x.jobScheduler := by
    obtain ⟨c, applied, rfl⟩ := takeReplies_ok stages.replied
    have kept : job ∈ c.jobScheduler := (applyReplies_frame applied).jobScheduler ▸ answered
    exact update_leaves kept (by simp [stands.2.2])
  rw [(manageConns_frame stages.managed).jobScheduler]
  exact splitJobs_leaves stands replied stages.split

theorem evolves_behind {u t b x y : Db} (stages : Repetition.Stages env db u t b x y db') :
    Evolves every IsNewRow (receive db) db' := by
  have fixed (job : Job) (row : IsNewRow job) := IsNewRow.fixed row
  have first : Evolves every IsNewRow (receive db) u :=
    (evolves_completeSplit rfl stages.completed).1
  have second : Evolves every IsNewRow (completeSingle u) t :=
    (requestConsensus_ok stages.requested).1.mono fun _ => IsRequestRow.new
  have started : Evolves every IsNewRow (receive db) (startKnown t) :=
    ((first.trans fixed (evolves_completeSingle u)).trans fixed second).trans fixed
      (evolves_startKnown t)
  have rest : (answerRequests env (startKnown t) >>= fun u =>
      takeReplies u >>= fun u => splitJobs env u >>= manageConns) = .ok db' :=
    bind_ok.mpr ⟨b, stages.answered, bind_ok.mpr ⟨x, stages.replied,
      bind_ok.mpr ⟨y, stages.split, stages.managed⟩⟩⟩
  exact started.trans fixed (evolves_afterPromote rfl rest)

theorem successor {job : Job} (evolves : Evolves every IsNewRow db db')
    (member : job ∈ db.jobScheduler) : ∃ new ∈ db'.jobScheduler, JobKept every job new := by
  obtain ⟨-, change, fresh, kept, rows, -⟩ := evolves
  refine ⟨change job, ?_, kept job⟩
  rw [rows]
  exact List.mem_append_left fresh (List.mem_map_of_mem member)

theorem promotes_n4 {s : JState} (steps : Promotes every .N4 s) : s = .N4 ∨ s = .C := by
  induction steps with
  | refl => exact .inl rfl
  | tail _ step ih =>
      rcases ih with rfl | rfl
      · cases step
        exact .inr rfl
      · exact absurd step (fixed_c every _)

theorem promotes_s1 {s : JState} (steps : Promotes every .S1 s) :
    s ∈ [.S1, .S2, .S3, .S2W, .S3W, .C] := by
  induction steps with
  | refl => exact List.mem_cons_self
  | tail _ step ih =>
      simp only [List.mem_cons, List.not_mem_nil, or_false] at ih
      rcases ih with rfl | rfl | rfl | rfl | rfl | rfl <;> cases step <;> decide

theorem passes_route (done : runJobs env db = .ok db') : Routes db db' := by
  obtain ⟨u, t, b, x, y, stages⟩ := Repetition.stages_of done
  obtain ⟨settled, requests, replies⟩ := stages.finished
  have evolves := evolves_behind stages
  refine ⟨settled, fun old member state => ?_⟩
  by_cases right : hashMatches old.jobdata = true
  · have accepted := (hashMatches_iff old.jobdata).mp right
    by_cases own : messageDestination old.jobdata ∈ rootDestinations db
    · have arrived := receive_own member state right own
      by_cases answered : Answered old.jobdata
      · obtain ⟨new, present, kept⟩ := successor evolves arrived
        have type : new.jtype = messageType old.jobdata :=
          kept.jtype.resolve_right fun h => absurd h.1 (by simp [Incoming])
        have completed : new.jstate = .C := by
          apply (promotes_n4 kept.jstate).resolve_left
          intro waits
          rcases answered with four | five
          · have listed := List.filter_eq_nil_iff.mp requests new present
            exact listed (by simp [waits, type, four])
          · have listed := List.filter_eq_nil_iff.mp replies new present
            exact listed (by simp [waits, type, five])
        refine ⟨new, present, kept.jobid, kept.jobdata, ?_,
          fun _ _ => ⟨type, .inl ⟨answered, completed⟩⟩, fun _ other => absurd own other⟩
        simp [completed, accepted]
      · rw [Answered, not_or] at answered
        have kept := pass_leaves stages ⟨rfl, answered.1, answered.2⟩ arrived
        refine ⟨_, kept, rfl, rfl, ?_, fun _ _ => ⟨rfl, .inr ⟨?_, rfl⟩⟩,
          fun _ other => absurd own other⟩
        · simp [accepted]
        · rwa [Answered, not_or]
    · have forwarded := receive_other member state right own
      obtain ⟨new, present, kept⟩ := successor evolves forwarded
      have destination : new.jdestination = messageDestination old.jobdata :=
        kept.jdestination.resolve_right fun h => absurd h.1 (by simp [Incoming])
      refine ⟨new, present, kept.jobid, kept.jobdata, ?_, fun _ inside => absurd inside own,
        fun _ _ => ⟨destination, kept.jstate⟩⟩
      have moved := promotes_s1 kept.jstate
      have alive : new.jstate ≠ .D := fun dead => absurd (dead ▸ moved) (by decide)
      exact iff_of_false alive (not_not_intro accepted)
  · have wrong := Bool.eq_false_iff.mpr right
    have refused : ¬ Accepted old.jobdata := fun accepted =>
      right ((hashMatches_iff old.jobdata).mpr accepted)
    have rejected := receive_rejects member state wrong
    have kept := evolves.mem_of_stuck rejected (fixed_d every)
    refine ⟨_, kept, rfl, rfl, ?_, fun accepted => absurd accepted refused,
      fun accepted => absurd accepted refused⟩
    simp [refused]

end Pass

/-- The types of the messages that `run_jobs` builds. -/
def messageTypes : List Text := ["1", "2", "3", "4", "5"].map ascii

/-- Every message from one system to another is accepted, and the own one exactly at the systems
whose name fills the same field as the other's. -/
def WellRouted (source name : Text) : Prop :=
  ∀ (now : Timestamp) (id : Uuid) (type : Text) (subheader messaget : Bytea) (priority : Text)
    (capacity : Option Int) (message : Bytea), type ∈ messageTypes →
    createMessage now id.text type subheader messaget source name priority capacity = .ok message →
    Accepted message ∧ ∀ own : Text, own.length ≤ 5 →
      (messageDestination message = lpad own 5 ↔ lpad own 5 = lpad name 5)

/-- If both names can be cast, the first has no backslash and the second is ASCII without one. -/
def FitNames (source name : Text) : Prop :=
  ∀ fixedSource fixedName, byteain (lpad source 5) = .ok fixedSource →
    byteain (lpad name 5) = .ok fixedName → 92 ∉ lpad source 5 ∧ Clean name

section Names

variable {source name : Text}

theorem clean_types {type : Text} (listed : type ∈ messageTypes) : Clean type := by
  have all : ∀ type ∈ messageTypes, Clean type := by decide
  exact all type listed

theorem accepted_sealed (body : Bytea) : Accepted (md5 body ++ body) :=
  (hashMatches_iff _).mp (hashMatches_sealed body)

theorem wellRouted_of_fit (fit : FitNames source name) : WellRouted source name := by
  intro now id type subheader messaget priority capacity message listed done
  obtain ⟨ty, src, dst, prio, pad, hty, hsrc, hdst, hprio, -, last⟩ := createMessage_ok done
  obtain ⟨free, clean⟩ := fit src dst hsrc hdst
  obtain rfl := Except.ok.inj (hsrc.symm.trans (byteain_free free))
  obtain rfl := Except.ok.inj (hdst.symm.trans (byteain_clean (clean.lpad 5)))
  obtain rfl := Except.ok.inj (hty.symm.trans (byteain_clean ((clean_types listed).lpad 5)))
  have whole := (sealMessage_ok last).1
  have destination : messageDestination message = lpad name 5 := by
    rw [whole, messageDestination, layout_destination (length_md5 _) id.length (length_lpad _ _)
      (length_lpad _ _) (length_lpad _ _), encode_clean (clean.lpad 5)]
  refine ⟨whole ▸ accepted_sealed _, fun own _ => ?_⟩
  rw [destination]
  exact eq_comm

def plainBody (now : Timestamp) (id : Uuid) (fixedSource fixedName : Bytea) (priority : Text) :
    Bytea :=
  messageBody id.text (lpad (ascii "1") 5) fixedSource fixedName (lpad priority 5) now.text []

theorem message_exists {fixedSource fixedName : Bytea} {priority : Text} (plain : Clean priority)
    (hsrc : byteain (lpad source 5) = .ok fixedSource)
    (hdst : byteain (lpad name 5) = .ok fixedName) (now : Timestamp) (id : Uuid) :
    createMessage now id.text (ascii "1") [] [] source name priority none =
      .ok (md5 (plainBody now id fixedSource fixedName priority) ++
        plainBody now id fixedSource fixedName priority) := by
  have hty : byteain (lpad (ascii "1") 5) = .ok (lpad (ascii "1") 5) := by decide
  have hprio := byteain_clean (plain.lpad 5)
  have source := (length_byteain hsrc).1
  have name := (length_byteain hdst).1
  rw [length_lpad] at source name
  have fits : 32 + (plainBody now id fixedSource fixedName priority).length ≤ maxField := by
    have large : 1000 ≤ maxField := by decide
    simp only [plainBody, messageBody, List.length_append, id.length, now.length, length_lpad,
      List.length_nil]
    omega
  rw [createMessage_of_parts hty hsrc hdst hprio rfl]
  exact if_pos fits

theorem destination_plain {fixedSource fixedName : Bytea} (now : Timestamp) (id : Uuid)
    (priority : Text) : messageDestination (md5 (plainBody now id fixedSource fixedName priority) ++
      plainBody now id fixedSource fixedName priority) =
        encode (substr (fixedSource ++ (fixedName ++ (lpad priority 5 ++ now.text))) 6 5) := by
  have hash := length_md5 (plainBody now id fixedSource fixedName priority)
  rw [messageDestination, substr_append_right (by omega), hash, plainBody, messageBody,
    substr_append_right (by rw [id.length]; omega), id.length,
    substr_append_right (by rw [length_lpad]; omega), length_lpad, List.append_nil]

theorem read_wellRouted (short : name.length ≤ 5) {fixedSource fixedName : Bytea} {priority : Text}
    (plain : Clean priority) (hsrc : byteain (lpad source 5) = .ok fixedSource)
    (hdst : byteain (lpad name 5) = .ok fixedName) (well : WellRouted source name)
    (now : Timestamp) :
    encode (substr (fixedSource ++ (fixedName ++ (lpad priority 5 ++ now.text))) 6 5) =
      lpad name 5 := by
  let id := Uuid.ofNat 0
  have built := message_exists plain hsrc hdst now id
  rw [← destination_plain now id priority]
  exact ((well now id (ascii "1") [] [] priority none _ (by decide) built).2 name short).mpr rfl

theorem clean_of_wellRouted (short : name.length ≤ 5) {fixedSource fixedName : Bytea}
    (hsrc : byteain (lpad source 5) = .ok fixedSource)
    (hdst : byteain (lpad name 5) = .ok fixedName) (well : WellRouted source name) :
    Clean name := by
  let now := sampleEnv.now
  have five : Clean (ascii "5") := by decide
  have read := read_wellRouted short five hsrc hdst well now
  have full : (substr (fixedSource ++ (fixedName ++ (lpad (ascii "5") 5 ++ now.text))) 6 5).length =
      5 := by
    simp only [substr, List.length_take, List.length_drop, List.length_append, length_lpad,
      now.length]
    omega
  have count : (encode (substr (fixedSource ++ (fixedName ++ (lpad (ascii "5") 5 ++ now.text)))
      6 5)).length = 5 := by rw [read, length_lpad]
  have clean := clean_of_encode (count.trans full.symm).le
  rw [encode_clean clean] at read
  rw [read] at clean
  exact clean.of_lpad short

/-- Behind a source that is cut short, the last byte that is read is one of the priority. -/
theorem fifth_byte {fixedSource fixedName rest : Bytea} {p : UInt8} (cut : fixedSource.length < 5)
    (full : fixedName.length = 5) :
    (substr (fixedSource ++ (fixedName ++ (List.replicate 5 p ++ rest))) 6 5)[4]? = some p := by
  rw [substr, List.getElem?_take_of_lt (by omega), List.getElem?_drop,
    List.getElem?_append_right (by omega), List.getElem?_append_right (by omega),
    List.getElem?_append_left (by rw [List.length_replicate]; omega),
    List.getElem?_replicate_of_lt (by omega)]

theorem free_of_wellRouted (short : name.length ≤ 5) {fixedSource fixedName : Bytea}
    (hsrc : byteain (lpad source 5) = .ok fixedSource)
    (hdst : byteain (lpad name 5) = .ok fixedName) (well : WellRouted source name) :
    92 ∉ lpad source 5 := by
  have clean := (clean_of_wellRouted short hsrc hdst well).lpad 5
  obtain rfl := Except.ok.inj (hdst.symm.trans (byteain_clean clean))
  obtain ⟨bound, exact⟩ := length_byteain hsrc
  rw [length_lpad] at bound exact
  by_contra backslash
  have cut : fixedSource.length < 5 :=
    Nat.lt_of_le_of_ne bound fun same => exact same backslash
  -- a priority whose characters all differ from the last one of the name
  have read (p : UInt8) (known : FileSharing.clean p = true) : (lpad name 5)[4]? = some p := by
    have plain : Clean (List.replicate 5 p) := fun c member =>
      List.eq_of_mem_replicate member ▸ known
    have field := read_wellRouted short plain hsrc hdst well sampleEnv.now
    rw [encode_eq_iff clean, lpad_of_length List.length_replicate] at field
    rw [← field]
    exact fifth_byte cut (length_lpad _ _)
  have zero := read 48 (by decide)
  have one := read 49 (by decide)
  rw [zero] at one
  exact absurd one (by decide)

theorem fit_of_wellRouted (short : name.length ≤ 5) (well : WellRouted source name) :
    FitNames source name := by
  intro fixedSource fixedName hsrc hdst
  exact ⟨free_of_wellRouted short hsrc hdst well, clean_of_wellRouted short hsrc hdst well⟩

/-- Every pass routes what has arrived by its hash and its destination, and the messages from one
system to another find their way exactly when the two names survive the cast to bytes. -/
theorem routed_iff (short : name.length ≤ 5) :
    (∀ env db db', runJobs env db = .ok db' → Routes db db') ∧
      (WellRouted source name ↔ FitNames source name) :=
  ⟨fun _ _ _ => passes_route, fit_of_wellRouted short, wellRouted_of_fit⟩

theorem routed_m3_m1 : (∀ env db db', runJobs env db = .ok db' → Routes db db') ∧
    WellRouted (ascii "M3") (ascii "M1") := by
  have fit : FitNames (ascii "M3") (ascii "M1") := fun _ _ _ _ => ⟨by decide, by decide⟩
  have short : (ascii "M1").length ≤ 5 := by decide
  exact (routed_iff short).imp_right fun named => named.mpr fit

/-- A name with an escaped backslash: its messages are passed on by its own system. -/
theorem backslash_misrouted : ¬ WellRouted (ascii "M3") (ascii "M\\\\") := by
  intro well
  have source : byteain (lpad (ascii "M3") 5) = .ok (lpad (ascii "M3") 5) := by decide
  have name : byteain (lpad (ascii "M\\\\") 5) = .ok (ascii "  M\\") := by decide
  exact absurd (clean_of_wellRouted (by decide) source name well) (by decide)

end Names

end Routing

end FileSharing
