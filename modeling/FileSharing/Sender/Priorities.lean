import FileSharing.Database.Advance
import FileSharing.Database.Splitting
import FileSharing.Sender.Descriptors

/-! The order in which `give_data_to_sender` takes the jobs: by the priority, a text that is
cast to a number. -/

namespace FileSharing

open Library

namespace SenderSide

/-- A text that `jpriority::INT` accepts. -/
def Numeric (priority : Text) : Prop := ∃ n, int4in priority = .ok n

instance decidableNumeric (priority : Text) : Decidable (Numeric priority) :=
  decidable_of_iff _ isOk_iff

def Numbered (db : Db) : Prop := ∀ job ∈ db.jobScheduler, Numeric job.jpriority

def Deliverable (db : Db) : Prop := ∀ row ∈ db.sGetInfo, Numeric row.2.jpriority

/-- The job goes to the first free partition and to S-4W, and `sender` is signalled. -/
def HandsOver (s : State) (sc : SendingConn) (js : Job) (t : State) : Prop :=
  ∃ idx, s.datas.getSubblock false 3 = some idx ∧ t = { s with
    datas := s.datas.write idx (sendMessageOf sc js)
    semLockSigs := s.semLockSigs + 1
    processorS := .waiting
    db := s.db.appendW js.jobid }

/-- `give_data_to_sender` comes to an end, and however it does it hands over a job whose
priority is the greatest. -/
structure HandsGreatest (s : State) : Prop where
  ends : ∃ choice t, step s (.giveData choice) = some t
  greatest : ∀ choice t, step s (.giveData choice) = some t →
    ∃ sc js n, (sc, js) ∈ s.db.sGetInfo ∧ HandsOver s sc js t ∧ int4in js.jpriority = .ok n ∧
      ∀ row ∈ s.db.sGetInfo, ∀ m, int4in row.2.jpriority = .ok m → m ≤ n

section Query

variable {db : Db} {choice : Nat} {priorities : List Int}

theorem priorities_total (deliverable : Deliverable db) :
    ∃ priorities, (db.sGetInfo.mapM fun row => int4in row.2.jpriority) = .ok priorities :=
  mapM_total deliverable

theorem deliverable_of_priorities
    (cast : (db.sGetInfo.mapM fun row => int4in row.2.jpriority) = .ok priorities) :
    Deliverable db := by
  intro row member
  obtain ⟨n, -, read⟩ := forall₂_mem_left (mapM_ok.mp cast) member
  exact ⟨n, read⟩

theorem firstInfo_found {row : SendingConn × Job}
    (first : firstInfo db choice = some (some row)) :
    ∃ n, Deliverable db ∧ row ∈ db.sGetInfo ∧ int4in row.2.jpriority = .ok n ∧
      ∀ other ∈ db.sGetInfo, ∀ m, int4in other.2.jpriority = .ok m → m ≤ n := by
  have member := firstInfo_mem first
  unfold firstInfo at first
  split at first
  · cases first
  · cases first
  · next priorities _ cast =>
      obtain ⟨chosen, found, rest⟩ := Option.bind_eq_some_iff.mp first
      obtain ⟨n, priority, last⟩ := Option.bind_eq_some_iff.mp rest
      have pairs := mapM_ok.mp cast
      split at last
      · next most =>
          obtain rfl := Option.some.inj (Option.some.inj last)
          have read : int4in chosen.2.jpriority = .ok n := by
            obtain ⟨low, same⟩ := List.getElem?_eq_some_iff.mp found
            obtain ⟨low', same'⟩ := List.getElem?_eq_some_iff.mp priority
            have paired := (List.forall₂_iff_get.mp pairs).2 choice low low'
            simpa [same, same'] using paired
          refine ⟨n, deliverable_of_priorities cast, member, read, fun other inside m value => ?_⟩
          obtain ⟨m', present, read'⟩ := forall₂_mem_left pairs inside
          obtain rfl := Except.ok.inj (value.symm.trans read')
          exact of_decide_eq_true (List.all_eq_true.mp most m present)
      · cases last

theorem firstInfo_exists (deliverable : Deliverable db) (nonempty : db.sGetInfo ≠ []) :
    ∃ choice row, firstInfo db choice = some (some row) := by
  obtain ⟨priorities, cast⟩ := priorities_total deliverable
  have count := (mapM_ok.mp cast).length_eq
  have long : 0 < priorities.length := count ▸ List.length_pos_iff.mpr nonempty
  obtain ⟨choice, low, same⟩ :=
    List.mem_iff_getElem.mp (List.maximum_of_length_pos_mem long)
  have most : priorities.all (· ≤ priorities[choice]) = true := by
    rw [List.all_eq_true]
    intro m member
    rw [same, decide_eq_true_eq]
    exact List.le_maximum_of_length_pos_of_mem member long
  refine ⟨choice, db.sGetInfo[choice], ?_⟩
  unfold firstInfo
  rw [cast]
  cases priorities with
  | nil => cases long
  | cons head tail =>
      dsimp only
      rw [List.getElem?_eq_getElem (count ▸ low), List.getElem?_eq_getElem low]
      exact if_pos most

theorem firstInfo_cases (deliverable : Deliverable db) (nonempty : db.sGetInfo ≠ [])
    {found : Option (SendingConn × Job)} (first : firstInfo db choice = some found) :
    ∃ row, found = some row := by
  obtain ⟨priorities, cast⟩ := priorities_total deliverable
  have count := (mapM_ok.mp cast).length_eq
  unfold firstInfo at first
  rw [cast] at first
  cases priorities with
  | nil => exact absurd (List.length_eq_zero_iff.mp count) nonempty
  | cons head tail =>
      obtain ⟨row, -, rest⟩ := Option.bind_eq_some_iff.mp first
      obtain ⟨n, -, last⟩ := Option.bind_eq_some_iff.mp rest
      split at last
      · exact ⟨row, (Option.some.inj last).symm⟩
      · cases last

end Query

section Handing

variable {s : State}

theorem step_giving (place : s.processorS = .giving) (choice : Nat) :
    step s (.giveData choice) = giveData s choice := by
  simp only [step, place]

theorem giveData_hands {choice idx : Nat} {sc : SendingConn} {js : Job} {t : State}
    (found : s.datas.getSubblock false 3 = some idx)
    (first : firstInfo s.db choice = some (some (sc, js))) :
    giveData s choice = some t ↔ HandsOver s sc js t := by
  simp only [giveData, found, first, Option.map_some, HandsOver, Option.some.injEq,
    exists_eq_left', eq_comm]

theorem giveData_found {choice idx : Nat} {t : State}
    (found : s.datas.getSubblock false 3 = some idx)
    (done : giveData s choice = some t) : ∃ result, firstInfo s.db choice = some result := by
  simp only [giveData, found] at done
  obtain ⟨result, first, -⟩ := Option.map_eq_some_iff.mp done
  exact ⟨result, first⟩

theorem hands_greatest (place : s.processorS = .giving) {idx : Nat}
    (free : s.datas.getSubblock false 3 = some idx) (nonempty : s.db.sGetInfo ≠ [])
    (deliverable : Deliverable s.db) : HandsGreatest s := by
  constructor
  · obtain ⟨choice, ⟨sc, js⟩, first⟩ := firstInfo_exists deliverable nonempty
    have done := (giveData_hands free first).mpr ⟨idx, free, rfl⟩
    exact ⟨choice, _, (step_giving place choice).trans done⟩
  · intro choice t done
    rw [step_giving place] at done
    obtain ⟨result, first⟩ := giveData_found free done
    obtain ⟨⟨sc, js⟩, rfl⟩ := firstInfo_cases deliverable nonempty first
    obtain ⟨n, -, member, read, most⟩ := firstInfo_found first
    exact ⟨sc, js, n, member, (giveData_hands free first).mp done, read, most⟩

theorem deliverable_of_hands (place : s.processorS = .giving) (hands : HandsGreatest s) :
    Deliverable s.db := by
  obtain ⟨choice, t, done⟩ := hands.ends
  obtain ⟨sc, js, n, -, ⟨idx, free, moved⟩, -, -⟩ := hands.greatest choice t done
  rw [step_giving place] at done
  have raised : t.semLockSigs = s.semLockSigs + 1 := moved ▸ rfl
  obtain ⟨result, first⟩ := giveData_found free done
  cases result with
  | none =>
      simp only [giveData, free, first, Option.map_some, Option.some.injEq] at done
      rw [← done] at raised
      exact absurd raised (Nat.succ_ne_self _).symm
  | some row =>
      obtain ⟨n, deliverable, -⟩ := firstInfo_found first
      exact deliverable

theorem getSubblock_of_free {k : Nat} (low : k < totalPartitions) (free : s.datas.bit k = false) :
    ∃ idx, s.datas.getSubblock false 3 = some idx := by
  cases found : s.datas.getSubblock false 3 with
  | some idx => exact ⟨idx, rfl⟩
  | none =>
      have full := Block.getSubblock_none.mp found k (Block.mem_all.mpr low)
      rw [free] at full
      cases full

end Handing

section Numbered

open RunJobs Completion

variable {env : Env} {w : Scope} {db db' : Db}

theorem numeric_five : Numeric (ascii "5") := ⟨5, by decide⟩

theorem numbered_evolves (numbered : Numbered db)
    (evolves : Evolves w (fun job => Numeric job.jpriority) db db') : Numbered db' := by
  obtain ⟨-, change, fresh, kept, split, made⟩ := evolves
  intro job member
  rw [split] at member
  rcases List.mem_append.mp member with old | new
  · obtain ⟨before, inside, rfl⟩ := List.mem_map.mp old
    rw [(kept before).jpriority]
    exact numbered before inside
  · exact made job new

theorem numbered_same (numbered : Numbered db) (same : db'.jobScheduler = db.jobScheduler) :
    Numbered db' := by
  intro job member
  rw [same] at member
  exact numbered job member

theorem numbered_insert {rows : List Job} (numbered : Numbered db)
    (done : db.insertJobs rows = .ok db') (made : ∀ job ∈ rows, Numeric job.jpriority) :
    Numbered db' := by
  intro job member
  rw [(insertJobs_ok done).1] at member
  rcases List.mem_append.mp member with old | new
  · exact numbered job old
  · exact made job new

theorem numeric_consensus {id parent : Uuid} {type destination : Text} {capacity : Int}
    {own : SelfInfo} {job : Job}
    (done : consensusJob env id type capacity own destination parent = .ok job) :
    Numeric job.jpriority := by
  unfold consensusJob at done
  obtain ⟨data, -, rest⟩ := bind_ok.mp done
  obtain rfl := pure_ok.mp rest
  exact numeric_five

theorem numeric_message {mdata : Bytea} {type : Text} {js job : Job}
    (numeric : Numeric js.jpriority) (done : messageJob mdata type js = .ok job) :
    Numeric job.jpriority := by
  unfold messageJob at done
  obtain ⟨id, -, rest⟩ := bind_ok.mp done
  obtain rfl := pure_ok.mp rest
  exact numeric

theorem numbered_singleJob (numbered : Numbered db) (done : singleJob env db = .ok db') :
    Numbered db' := by
  unfold singleJob at done
  obtain ⟨rows, read, rest⟩ := bind_ok.mp done
  obtain ⟨jobs, built, inserted⟩ := bind_ok.mp rest
  refine numbered_insert numbered inserted fun job member => ?_
  obtain ⟨row, inside, made⟩ := forall₂_mem_right (mapM_ok.mp built) member
  obtain ⟨mdata, -, last⟩ := singleMessage_ok made
  exact numeric_message (numbered _ (joined_mem read (mem_zipIdx_left inside)).1) last

theorem numbered_chunkJobs (numbered : Numbered db) (done : chunkJobs env db = .ok db') :
    Numbered db' := by
  unfold chunkJobs at done
  obtain ⟨rows, read, rest⟩ := bind_ok.mp done
  obtain ⟨parts, cut, rest⟩ := bind_ok.mp rest
  obtain ⟨jobs, built, inserted⟩ := bind_ok.mp rest
  refine numbered_insert numbered inserted fun job member => ?_
  obtain ⟨row, inside, made⟩ := forall₂_mem_right (mapM_ok.mp built) member
  obtain ⟨mdata, -, last⟩ := chunkMessage_ok made
  obtain ⟨part, within, chosen⟩ := List.mem_flatten.mp (mem_zipIdx_left inside)
  obtain ⟨⟨fd, js, si⟩, known, pieces⟩ := forall₂_mem_right (mapM_ok.mp cut) within
  rw [(chunkInfo_ok pieces).1 _ chosen] at last
  exact numeric_message (numbered _ (joined_mem read known).1) last

theorem numbered_infoJobs (numbered : Numbered db) (done : infoJobs env db = .ok db') :
    Numbered db' := by
  unfold infoJobs at done
  obtain ⟨rows, read, rest⟩ := bind_ok.mp done
  obtain ⟨jobs, built, inserted⟩ := bind_ok.mp rest
  refine numbered_insert numbered inserted fun job member => ?_
  obtain ⟨row, inside, made⟩ := forall₂_mem_right (mapM_ok.mp built) member
  obtain ⟨_, _, mdata, -, -, -, -, last⟩ := infoMessage_ok made
  exact numeric_message (numbered _ (joined_mem read (mem_zipIdx_left inside)).1) last

theorem numbered_answerRequests (numbered : Numbered db) (done : answerRequests env db = .ok db') :
    Numbered db' := by
  rcases answerRequests_ok done with ⟨-, rfl⟩ | ⟨request, r, reply, u, v, -, -, written, made,
    inserted, rfl⟩
  · exact numbered_evolves (w := every) numbered (evolves_finishPending "4" db)
  · have second : Numbered v := by
      intro job member
      rw [(insertJob_ok inserted).1, (upsertSysinfo_frame written).jobScheduler] at member
      rcases List.mem_append.mp member with old | new
      · exact numbered job old
      · rw [List.mem_singleton.mp new]
        exact numeric_consensus made
    exact numbered_evolves (w := every) second (evolves_finishPending "4" v)

theorem numbered_runJobs (numbered : Numbered db) (done : runJobs env db = .ok db') :
    Numbered db' := by
  obtain ⟨a, promoted, rest⟩ := bind_ok.mp done
  obtain ⟨b, answered, rest⟩ := bind_ok.mp rest
  obtain ⟨c, replied, rest⟩ := bind_ok.mp rest
  obtain ⟨d, split, managed⟩ := bind_ok.mp rest
  have first : Numbered a := by
    refine numbered_evolves (w := every) numbered ?_
    refine (promote_ok rfl promoted).1.mono fun job row => ?_
    obtain ⟨i, si, -, js, -, -, made⟩ := row
    exact numeric_consensus made
  have second := numbered_answerRequests first answered
  have third : Numbered c := by
    obtain ⟨u, applied, rfl⟩ := takeReplies_ok replied
    have same := numbered_same second (applyReplies_frame applied).jobScheduler
    exact numbered_evolves (w := every) same (evolves_finishPending "5" u)
  have fourth : Numbered d := by
    unfold splitJobs at split
    obtain ⟨e, parted, rest⟩ := bind_ok.mp split
    obtain ⟨f, single, rest⟩ := bind_ok.mp rest
    obtain ⟨g, singles, rest⟩ := bind_ok.mp rest
    obtain ⟨h, chunks, rest⟩ := bind_ok.mp rest
    obtain ⟨i, infos, last⟩ := bind_ok.mp rest
    obtain rfl := pure_ok.mp last
    have started := numbered_evolves (w := every) third (evolves_startSplit rfl parted)
    have measured := numbered_evolves (w := every) started (evolves_startSingle rfl single)
    have built := numbered_infoJobs
      (numbered_chunkJobs (numbered_singleJob measured singles) chunks) infos
    exact numbered_evolves (w := every) built (evolves_awaitChildren rfl i)
  exact numbered_same fourth (manageConns_frame managed).jobScheduler

theorem numbered_append {job : Job} (numbered : Numbered db)
    (rows : db'.jobScheduler = db.jobScheduler ++ [job]) (numeric : Numeric job.jpriority) :
    Numbered db' := by
  intro row member
  rw [rows] at member
  rcases List.mem_append.mp member with old | new
  · exact numbered row old
  · rw [List.mem_singleton.mp new]
    exact numeric

theorem numbered_sendFile {id : Uuid} {fileName destination : Text} (numbered : Numbered db)
    (done : db.sendFile id fileName destination = .ok db') : Numbered db' := by
  unfold Db.sendFile at done
  split at done
  · obtain ⟨jobdata, -, rest⟩ := bind_ok.mp done
    obtain ⟨root, -, -, inserted⟩ := insertUnderRoot_ok rest
    exact numbered_append numbered (insertJob_ok inserted).1 numeric_five
  · obtain rfl := pure_ok.mp done
    exact numbered

theorem numbered_storeData {id : Uuid} {fd : Int} {data : Bytea} (numbered : Numbered db)
    (done : db.storeData id fd data = .ok db') : Numbered db' := by
  obtain ⟨root, -, -, inserted⟩ := insertUnderRoot_ok done
  exact numbered_append numbered (insertJob_ok inserted).1 numeric_five

theorem numbered_update (numbered : Numbered db) {condition : Job → Bool} {change : Job → Job}
    (numeric : ∀ job, Numeric job.jpriority → Numeric (change job).jpriority) :
    Numbered (db.updateJobs condition change) := by
  intro job member
  obtain ⟨before, inside, rfl⟩ := List.mem_map.mp member
  split
  · exact numeric before (numbered before inside)
  · exact numbered before inside

def setPriority : Action → Option Text
  | .database (.updateJobPriority _ priority) => some priority
  | _ => none

def NumericUpdate (_ : State) (a : Action) : Prop := ∀ priority ∈ setPriority a, Numeric priority

instance decidableNumericUpdate (s : State) (a : Action) : Decidable (NumericUpdate s a) :=
  inferInstanceAs (Decidable (∀ priority ∈ setPriority a, Numeric priority))

theorem numbered_attempt {done : Sql Db} (numbered : Numbered db)
    (each : ∀ db', done = .ok db' → Numbered db') : Numbered (db.attempt done) := by
  rcases Db.attempt_cases db done with same | ⟨u, ok, same⟩
  · rw [same]
    exact numbered
  · rw [same]
    exact each u ok

theorem numbered_perform {s : State} {op : Operation} (numbered : Numbered db)
    (allowed : NumericUpdate s (.database op)) (done : db.perform op = some db') :
    Numbered db' := by
  cases op with
  | runJobs env =>
      obtain rfl := Option.some.inj done
      exact numbered_attempt numbered fun _ => numbered_runJobs numbered
  | importFile file =>
      obtain rfl := Option.some.inj done
      refine numbered_attempt numbered fun u imported => ?_
      exact numbered_same numbered (importFile_ok imported ▸ rfl)
  | sendFile id fileName destination =>
      obtain rfl := Option.some.inj done
      exact numbered_attempt numbered fun _ => numbered_sendFile numbered
  | updateJobPriority id priority =>
      obtain rfl := Option.some.inj done
      exact numbered_update numbered fun _ _ => allowed priority rfl
  | storeData id fd data =>
      obtain rfl := Option.some.inj done
      exact numbered_attempt numbered fun _ => numbered_storeData numbered
  | retrieve sc job =>
      simp only [Db.perform] at done
      split at done
      · obtain rfl := Option.some.inj done
        exact numbered_update numbered fun _ numeric => numeric
      · cases done
  | updateStatus id status =>
      obtain rfl := Option.some.inj done
      exact numbered_update numbered fun _ numeric => numeric
  | updateConns ipaddress fd status =>
      obtain rfl := Option.some.inj done
      exact numbered_same numbered rfl
  | updateComms scommid =>
      obtain rfl := Option.some.inj done
      exact numbered_same numbered rfl
  | deleteComms scommid =>
      obtain rfl := Option.some.inj done
      exact numbered_same numbered rfl
  | getcomms rcomid =>
      obtain ⟨row, -, -, rfl⟩ := Db.perform_getcomms done
      exact numbered_same numbered rfl
  | insertConns fd ipaddr status =>
      obtain rfl := Option.some.inj done
      obtain ⟨rows, same⟩ := Db.rInsertConns_frame db fd ipaddr status
      exact numbered_same numbered (same ▸ rfl)

theorem numbered_step {s t : State} {a : Action} (numbered : Numbered s.db)
    (allowed : NumericUpdate s a) (moves : Moves s a t) : Numbered t.db := by
  cases moves with
  | readMessage place found holds => exact numbered_update numbered fun _ numeric => numeric
  | giveJob place found first => exact numbered_update numbered fun _ numeric => numeric
  | database other done => exact numbered_perform numbered allowed done
  | _ => exact numbered

end Numbered

/-- The job table that a run has reached, with a job that can be delivered and a partition that
is free: which priorities make the hand-over work. In a run in which users set numbers only,
these are all. -/
theorem hands_greatest_iff {db : Db} {sigs : Nat} {actions : List Action} {s : State}
    (numbered : Numbered db) (done : run step (initial db sigs) actions = some s) :
    (s.processorS = .giving → s.db.sGetInfo ≠ [] →
      (∃ k < totalPartitions, s.datas.bit k = false) →
      (HandsGreatest s ↔ Deliverable s.db)) ∧
    (Guarded step NumericUpdate (initial db sigs) actions → Deliverable s.db) := by
  constructor
  · rintro place nonempty ⟨k, low, free⟩
    obtain ⟨idx, found⟩ := getSubblock_of_free low free
    exact ⟨deliverable_of_hands place, hands_greatest place found nonempty⟩
  · intro guarded row member
    have keeps (s : State) (a : Action) (t : State) (kept : Numbered s.db)
        (allowed : NumericUpdate s a) (moved : step s a = some t) : Numbered t.db :=
      numbered_step kept allowed (step_moves moved)
    have every : Numbered s.db := guarded_run_keeps keeps numbered guarded done
    exact every row.2 (Db.mem_sGetInfo.mp member).2.1

def prioritised (priorities : List Text) : List Action :=
  (priorities.zipIdx 1).map (fun (_, i) => sendFileAs i) ++ [passFrom 100] ++
    (priorities.zipIdx 1).map (fun (priority, i) =>
      .database (.updateJobPriority (Uuid.ofNat i) priority)) ++
    [.signal, .waitSigps, .readMsg, .sendMsg 0, .updateComms, .giveData 0, .waitSigs, .getMessage,
      .connect (some 5) true, .reportConnection, .getData, .waitSigps, .readMsg, .deleteComms,
      .sendMsg 0]

def aboutToGive (s : State) : Bool × List Text :=
  (s.processorS = .giving && !s.datas.bit 0, s.db.sGetInfo.map fun row => row.2.jpriority)

theorem run_gives {priority : Text} {priorities : List Text}
    (gives : (run step (initial knownDb 0) (prioritised (priority :: priorities))).map aboutToGive =
      some (true, priority :: priorities)) :
    ∃ s, run step (initial knownDb 0) (prioritised (priority :: priorities)) = some s ∧
      s.processorS = .giving ∧ s.db.sGetInfo ≠ [] ∧
      (∃ k < totalPartitions, s.datas.bit k = false) ∧
      s.db.sGetInfo.map (fun row => row.2.jpriority) = priority :: priorities := by
  obtain ⟨s, done, about⟩ := Option.map_eq_some_iff.mp gives
  obtain ⟨ready, seen⟩ := Prod.mk.inj about
  rw [Bool.and_eq_true, decide_eq_true_eq, Bool.not_eq_true'] at ready
  have nonempty : s.db.sGetInfo ≠ [] := by
    intro none
    rw [none] at seen
    cases seen
  exact ⟨s, done, ready.1, nonempty, ⟨0, by decide, ready.2⟩, seen⟩

theorem hands_greatest_ten :
    ∃ s, run step (initial knownDb 0) (prioritised [ascii "9", ascii "10"]) = some s ∧
      s.processorS = .giving ∧
      s.db.sGetInfo.map (fun row => row.2.jpriority) = [ascii "9", ascii "10"] ∧
      HandsGreatest s ∧ ∀ choice t, step s (.giveData choice) = some t →
        ∃ sc js, HandsOver s sc js t ∧ js.jpriority = ascii "10" := by
  obtain ⟨s, done, place, nonempty, free, seen⟩ := run_gives (by decide +kernel :
    (run step (initial knownDb 0) (prioritised [ascii "9", ascii "10"])).map aboutToGive =
      some (true, [ascii "9", ascii "10"]))
  have numbered : Numbered knownDb := by unfold Numbered; decide +kernel
  obtain ⟨hands, numeric⟩ := hands_greatest_iff numbered done
  have guarded : Guarded step NumericUpdate (initial knownDb 0)
      (prioritised [ascii "9", ascii "10"]) := by decide +kernel
  have greatest : HandsGreatest s := (hands place nonempty free).mpr (numeric guarded)
  refine ⟨s, done, place, seen, greatest, fun choice t moved => ?_⟩
  obtain ⟨sc, js, n, listed, handed, read, most⟩ := greatest.greatest choice t moved
  have ten : ∃ row ∈ s.db.sGetInfo, row.2.jpriority = ascii "10" := by
    apply List.mem_map.mp
    rw [seen]
    decide
  obtain ⟨row, inside, is⟩ := ten
  have least : 10 ≤ n := most row inside 10 (by rw [is]; decide)
  have either : js.jpriority ∈ [ascii "9", ascii "10"] :=
    seen ▸ List.mem_map_of_mem (f := fun row => row.2.jpriority) listed
  refine ⟨sc, js, handed, ?_⟩
  rcases List.mem_pair.mp either with nine | is
  · have known : int4in (ascii "9") = .ok 9 := by decide
    rw [nine, known] at read
    have same := Except.ok.inj read
    omega
  · exact is

/-- The user sets a word for the priority. -/
theorem word_hands_nothing :
    ∃ s, run step (initial knownDb 0) (prioritised [ascii "high"]) = some s ∧
      s.processorS = .giving ∧ s.db.sGetInfo ≠ [] ∧
      (∃ k < totalPartitions, s.datas.bit k = false) ∧ ¬ HandsGreatest s := by
  obtain ⟨s, done, place, nonempty, free, seen⟩ := run_gives (by decide +kernel :
    (run step (initial knownDb 0) (prioritised [ascii "high"])).map aboutToGive =
      some (true, [ascii "high"]))
  refine ⟨s, done, place, nonempty, free, fun hands => ?_⟩
  have numeric := deliverable_of_hands place hands
  have word : ∀ priority ∈ s.db.sGetInfo.map (fun row => row.2.jpriority), Numeric priority := by
    intro priority member
    obtain ⟨row, inside, rfl⟩ := List.mem_map.mp member
    exact numeric row inside
  rw [seen] at word
  exact absurd (word _ List.mem_cons_self) (by decide)

end SenderSide

end FileSharing
