import FileSharing.Database.Reassembly
import FileSharing.Database.Routing
import FileSharing.Receiver.DataBlock
import FileSharing.Receiver.Framing
import FileSharing.Sender.Sending

/-! A file on its whole way: cut by one system, sent over a connection, received and stored by
another one, where its messages are found again. -/

namespace FileSharing

open Library RunJobs Completion

namespace Delivery

structure Transmission where
  message : Bytea
  memory : Int → UInt8
  results : List Int

def Transmission.wire (tr : Transmission) : Bytea :=
  ((Sending.sendLoop tr.message.length tr.results).map fun sent => sent.2.map tr.memory).getD []

/-- The loop goes through without a fault, and reports that the message was sent. -/
structure Transmission.Delivered (tr : Transmission) : Prop where
  buffer : (addresses 0 tr.message.length).map tr.memory = tr.message
  possible : ∀ r ∈ tr.results, Sending.Possible tr.message.length r
  clean : Sending.Clean tr.message.length 0 tr.results
  reported : ∃ total wire, Sending.sendLoop tr.message.length tr.results = some (total, wire) ∧
    Sending.status tr.message.length total = 1

/-- `run_receiver` has read the stream of a descriptor, in events that end with a message. -/
structure Received (sizes : Int → Nat) (streams : Int → Bytea) (events : List Framing.Event)
    (fd : Int) (r : Framing.State) : Prop where
  done : Framing.runReceiver sizes ⟨streams, []⟩ events = some r
  consumed : r.streams fd = []
  whole : ∀ e ∈ events, e.fd = fd → sizes fd ∣ e.counts.sum

/-- The calls of `send_to_processor` have gone through the data block, which was never full for
long, and `processor_r` has stored what was in it. -/
structure Stored (db : Db) (actions : List DataBlock.Action) (calls : List NewmsgData)
    (t : DataBlock.State) : Prop where
  done : run DataBlock.step (DataBlock.initial db) actions = some t
  calls : outputs DataBlock.step DataBlock.passed (DataBlock.initial db) actions = calls
  room : Guarded DataBlock.step DataBlock.HasRoom (DataBlock.initial db) actions
  drained : t.inFlight = []

/-- Rows of the database that wait in N-4 and give the file: one for each piece, in the order of
their numbers, and the one about all of them. -/
structure Holds (db : Db) (file : Bytea) (parent : Text) (pieces : List Job) (info : Job) : Prop where
  rows : ∀ job ∈ info :: pieces, job ∈ db.jobScheduler ∧ job.jstate = .N4
  apart : (info :: pieces).Nodup
  types : ∀ job ∈ pieces, job.jtype = typeField "2"
  infoType : info.jtype = typeField "3"
  parents : ∀ job ∈ pieces, Chunks.chunkParent job.jobdata = parent
  infoParent : Chunks.infoParent info.jobdata = parent
  indices : pieces.mapM (fun job => Chunks.chunkIndex job.jobdata) =
    .ok ((List.range pieces.length).map Int.ofNat)
  infoCount : chunkCount info.jobdata = .ok pieces.length
  infoSize : Chunks.infoSize info.jobdata = .ok file.length
  content : ∃ parts, pieces.mapM (fun job => Chunks.chunkPayload job.jobdata) = .ok parts ∧
    parts.flatten = file

section Wire

theorem wire_of_delivered {tr : Transmission} (delivered : tr.Delivered)
    (some : 1 ≤ tr.message.length) : tr.wire = tr.message := by
  obtain ⟨total, wire, sent, reported⟩ := delivered.reported
  have finishes := (Sending.finishes_iff (by omega) delivered.possible).mpr delivered.clean
  obtain ⟨failures, last, moved, done, inside, all⟩ := finishes
  have longer := transfer_append (List.replicate failures (-1)) sent
  obtain ⟨rfl, rfl⟩ := Prod.mk.inj (Option.some.inj (longer.symm.trans done))
  have enough : (tr.message.length : Int) ≤ total := by
    unfold Sending.status at reported
    split at reported
    · cases reported
    · omega
  have count := all.mp enough
  rw [Int.sub_zero, Int.toNat_natCast] at inside
  have whole : wire = addresses 0 tr.message.length := by
    apply inside.eq_of_length
    rw [length_addresses]
    omega
  rw [Transmission.wire, sent]
  change wire.map tr.memory = tr.message
  rw [whole, delivered.buffer]

theorem delivered_whole {message : Bytea} (some : 1 ≤ message.length) :
    Transmission.Delivered
      ⟨message, fun a => message.getD a.toNat 0, [(message.length : Int)]⟩ := by
  have last : (message.length : Int) ≤ 0 + message.length := by omega
  constructor
  · apply List.ext_getElem
    · rw [List.length_map, length_addresses]
    · intro i _ inside
      simp [addresses, inside]
  · intro r member
    rw [List.mem_singleton.mp member]
    exact .inr ⟨by omega, le_rfl⟩
  · have taken : ¬ (message.length : Int) ≤ 0 := by omega
    rw [Sending.Clean, if_neg taken]
    exact .inl (Int.zero_add _)
  · refine ⟨_, _, transfer_last (.inl last), ?_⟩
    have all : ¬ (0 + (message.length : Int)) < message.length := by omega
    exact if_neg all

end Wire

section Reception

variable {sizes : Int → Nat} {streams : Int → Bytea} {events : List Framing.Event} {fd : Int}
  {r : Framing.State} {db : Db} {actions : List DataBlock.Action} {t : DataBlock.State}

theorem received_messages (received : Received sizes streams events fd r) {msgs : List Bytea}
    (positive : 1 ≤ sizes fd) (lengths : ∀ m ∈ msgs, m.length = sizes fd)
    (stream : streams fd = msgs.flatten) : (r.sentOn fd).map NewmsgData.data = msgs := by
  obtain ⟨sent, appended, each, -, whole⟩ := Framing.run_spec positive received.done
  have calls : r.sentOn fd = sent := by
    rw [appended]
    simp [Framing.State.sentOn]
  have bytes : sent.flatMap NewmsgData.data ++ r.streams fd = streams fd := whole received.whole
  rw [received.consumed, List.append_nil] at bytes
  apply Framing.blocks_unique positive _ lengths
  · rw [calls, ← stream, ← bytes, List.flatMap_def]
  · intro m member
    obtain ⟨call, inside, rfl⟩ := List.mem_map.mp member
    exact (each call (calls ▸ inside)).2.2

theorem keys_stored {s t : DataBlock.State} {a : DataBlock.Action} (keys : s.db.Keys)
    (moved : DataBlock.step s a = some t) : t.db.Keys := by
  cases a with
  | getData id =>
      simp only [DataBlock.step] at moved
      split at moved
      · rcases DataBlock.getData_cases moved with ⟨-, rfl⟩ | ⟨idx, nmsg, db, -, -, inserted, rfl⟩
        · exact keys
        · have op : s.db.perform (.storeData id nmsg.data1 (nmsg.data.take nmsg.data2)) =
              some db := by
            simp only [Db.perform, inserted]
            rfl
          exact Db.keys_perform keys op
      · cases moved
  | attempt =>
      simp only [DataBlock.step] at moved
      split at moved
      · obtain rfl := Option.some.inj moved
        rcases DataBlock.attempt_cases with ⟨idx, -, after⟩ | ⟨-, after⟩
        · rwa [after]
        · rwa [after]
      · cases moved
  | signal =>
      obtain rfl := Option.some.inj moved
      exact keys
  | _ =>
      simp only [DataBlock.step] at moved
      split at moved
      · obtain rfl := Option.some.inj moved
        exact keys
      · cases moved

theorem room_iff_dropped {s : DataBlock.State} (done : run DataBlock.step s actions = some t) :
    outputs DataBlock.step DataBlock.dropped s actions = [] ↔
      Guarded DataBlock.step DataBlock.HasRoom s actions :=
  outputs_nil_iff DataBlock.dropped DataBlock.HasRoom done fun _ _ _ => DataBlock.dropped_nil_iff

theorem stored_of_dropped {calls : List NewmsgData}
    (done : run DataBlock.step (DataBlock.initial db) actions = some t)
    (passed : outputs DataBlock.step DataBlock.passed (DataBlock.initial db) actions = calls)
    (dropped : outputs DataBlock.step DataBlock.dropped (DataBlock.initial db) actions = [])
    (drained : t.inFlight = []) : Stored db actions calls t :=
  ⟨done, passed, (room_iff_dropped done).mp dropped, drained⟩

theorem stored_rows {calls : List NewmsgData} (stored : Stored db actions calls t) :
    ∃ rows, t.db.jobScheduler = db.jobScheduler ++ rows ∧ (∀ job ∈ rows, job.jstate = .N1) ∧
      (rows.map Job.jobdata).Perm (calls.map NewmsgData.data) := by
  have empty : (DataBlock.initial db).inFlight = [] := by
    simp [DataBlock.State.inFlight, DataBlock.initial, DataBlock.Writer.holding, Block.held_empty]
  have moved := run_conserves (fun _ => True) DataBlock.State.inFlight DataBlock.passed
    (fun s a => DataBlock.dropped s a ++ DataBlock.stored s a) trivial stored.done
    (fun _ _ _ _ _ => trivial) fun _ _ _ _ => DataBlock.step_conserves
  have nothing := (room_iff_dropped stored.done).mpr stored.room
  have balance := ((outputs_append DataBlock.dropped DataBlock.stored (DataBlock.initial db)
    actions).symm.append_right t.inFlight).trans moved
  rw [nothing, stored.drained, empty, List.append_nil, List.append_nil, List.nil_append,
    stored.calls] at balance
  obtain ⟨rows, appended, each⟩ := DataBlock.run_inserts stored.done
  have views : rows.map Job.jobdata =
      (outputs DataBlock.step DataBlock.stored (DataBlock.initial db) actions).map
        NewmsgData.data := by
    refine forall₂_map_eq each fun nmsg member job held => ?_
    have passed : nmsg ∈ outputs DataBlock.step DataBlock.passed (DataBlock.initial db) actions :=
      stored.calls ▸ balance.subset member
    rw [held.1, DataBlock.passed_whole nmsg passed, List.take_length]
  refine ⟨rows, appended, ?_, views ▸ balance.map NewmsgData.data⟩
  intro job member
  obtain ⟨nmsg, -, held⟩ := forall₂_mem_right each member
  exact held.2.2

theorem passed_rows {env : Env} {db' : Db} {chosen : List Job} (keys : db.Keys)
    (pass : runJobs env db = .ok db') (inside : chosen.Subperm db.jobScheduler)
    (arrived : ∀ job ∈ chosen, job.jstate = .N1 ∧ Routing.Accepted job.jobdata ∧
      ¬ Routing.Answered job.jobdata ∧ messageDestination job.jobdata ∈ rootDestinations db) :
    ∃ rows : List Job, rows.map Job.jobdata = chosen.map Job.jobdata ∧ rows.Nodup ∧
      ∀ job ∈ rows, job ∈ db'.jobScheduler ∧ job.jstate = .N4 ∧
        job.jtype = messageType job.jobdata := by
  have each (old : { job // job ∈ chosen }) : ∃ new ∈ db'.jobScheduler,
      new.jobid = old.1.jobid ∧ new.jobdata = old.1.jobdata ∧ new.jstate = .N4 ∧
        new.jtype = messageType old.1.jobdata := by
    obtain ⟨state, accepted, other, own⟩ := arrived old.1 old.2
    obtain ⟨new, present, id, routed⟩ :=
      (Routing.passes_route pass).routed old.1 (inside.subset old.2) state
    obtain ⟨type, fate⟩ := routed.own accepted own
    have waits := (fate.resolve_left fun answered => other answered.1).2
    exact ⟨new, present, id, routed.jobdata, waits, type⟩
  choose next present id data state type using each
  have same {α : Type} (f : Job → α) (kept : ∀ old, f (next old) = f old.1) :
      (chosen.attach.map next).map f = chosen.map f := by
    calc
      (chosen.attach.map next).map f = chosen.attach.map fun old => f (next old) := List.map_map
      _ = chosen.attach.map fun old => f old.1 := List.map_congr_left fun old _ => kept old
      _ = chosen.map f := List.attach_map_val
  refine ⟨chosen.attach.map next, same Job.jobdata data, ?_, ?_⟩
  · obtain ⟨part, perm, sublist⟩ := inside
    have ids : (chosen.map Job.jobid).Nodup :=
      (perm.map Job.jobid).nodup_iff.mp (keys.jobids.sublist (sublist.map Job.jobid))
    exact List.Nodup.of_map Job.jobid (same Job.jobid id ▸ ids)
  · intro job member
    obtain ⟨old, -, rfl⟩ := List.mem_map.mp member
    exact ⟨present old, state old, data old ▸ type old⟩

end Reception

section Messages

variable {env : Env} {fd : File} {js : Job} {si : SysInfo} {numbers : List Nat} {number : Nat}
  {chunks : List Job} {info : Job}

structure Addressed (name : Text) (message : Bytea) : Prop where
  accepted : Routing.Accepted message
  own : messageDestination message = lpad name 5

theorem addressed_created {now : Timestamp} {id : Uuid} {type source name priority : Text}
    {subheader messaget message : Bytea} {capacity : Option Int} (short : name.length ≤ 5)
    (fit : Routing.FitNames source name) (listed : type ∈ Routing.messageTypes)
    (sealing : createMessage now id.text type subheader messaget source name priority capacity =
      .ok message) : Addressed name message := by
  obtain ⟨accepted, names⟩ := Routing.wellRouted_of_fit fit now id type subheader messaget
    priority capacity message listed sealing
  exact ⟨accepted, (names _ short).mpr rfl⟩

theorem addressed_split
    (made : Chunks.splitJob env (fd, js, si) numbers number = .ok (chunks, info))
    (short : (btrim js.jdestination).length ≤ 5)
    (fit : Routing.FitNames (btrim js.jsource) (btrim js.jdestination)) :
    ∀ job ∈ info :: chunks, Addressed (btrim js.jdestination) job.jobdata := by
  obtain ⟨parts, cut, rest⟩ := bind_ok.mp made
  obtain ⟨chunks', built, rest⟩ := bind_ok.mp rest
  obtain ⟨info', told, same⟩ := bind_ok.mp rest
  obtain ⟨rfl, rfl⟩ := Prod.mk.inj (pure_ok.mp same)
  intro job member
  rcases List.mem_cons.mp member with rfl | inside
  · obtain ⟨capacity, count, mdata, -, -, -, sealing, last⟩ := infoMessage_ok told
    rw [(messageJob_ok last).2.1]
    exact addressed_created short fit (by decide) sealing
  · obtain ⟨p, present, done⟩ := forall₂_mem_right (mapM_ok.mp built) inside
    have mine : p.1.js = js := (Completion.chunkInfo_ok cut).1 p.1 (List.of_mem_zip present).1
    obtain ⟨mdata, sealing, last⟩ := chunkMessage_ok done
    rw [mine] at sealing
    rw [(messageJob_ok last).2.1]
    exact addressed_created short fit (by decide) sealing

end Messages

theorem holds_of_layout {db : Db} {capacity : Int} {file : Bytea} {parent : Uuid}
    {chunks order rows : List Job} {info last : Job}
    (layout : Chunks.Layout capacity file parent chunks info)
    (perm : order.Perm chunks)
    (indexed : order.mapM (fun job => Chunks.chunkIndex job.jobdata) =
      .ok ((List.range (Chunks.chunkTotal file.length capacity)).map Int.ofNat))
    {parts : List Bytea}
    (read : order.mapM (fun job => Chunks.chunkPayload job.jobdata) = .ok parts)
    (whole : parts.flatten = file)
    (data : rows.map Job.jobdata = order.map Job.jobdata) (lastData : last.jobdata = info.jobdata)
    (apart : (last :: rows).Nodup)
    (waits : ∀ job ∈ last :: rows, job ∈ db.jobScheduler ∧ job.jstate = .N4 ∧
      job.jtype = messageType job.jobdata) :
    Holds db file parent.text rows last := by
  have count : rows.length = Chunks.chunkTotal file.length capacity := by
    calc
      rows.length = order.length := by simpa using congrArg List.length data
      _ = chunks.length := perm.length_eq
      _ = _ := layout.count
  have shown {job : Job} (member : job ∈ rows) :
      ∃ chunk ∈ chunks, chunk.jobdata = job.jobdata := by
    have listed : job.jobdata ∈ order.map Job.jobdata := data ▸ List.mem_map_of_mem member
    obtain ⟨chunk, inside, same⟩ := List.mem_map.mp listed
    exact ⟨chunk, perm.subset inside, same⟩
  have reads {α : Type} (f : Bytea → Sql α) :
      rows.mapM (fun job => f job.jobdata) = order.mapM fun job => f job.jobdata := by
    calc
      rows.mapM (fun job => f job.jobdata) = (rows.map Job.jobdata).mapM f :=
        List.mapM_map.symm
      _ = (order.map Job.jobdata).mapM f := by rw [data]
      _ = order.mapM fun job => f job.jobdata := List.mapM_map
  constructor
  · exact fun job member => ⟨(waits job member).1, (waits job member).2.1⟩
  · exact apart
  · intro job member
    obtain ⟨chunk, inside, same⟩ := shown member
    rw [(waits job (List.mem_cons_of_mem _ member)).2.2, ← same, layout.types chunk inside]
  · rw [(waits last List.mem_cons_self).2.2, lastData, layout.infoType]
  · intro job member
    obtain ⟨chunk, inside, same⟩ := shown member
    rw [← same, layout.parents chunk inside]
  · rw [lastData, layout.infoParent]
  · rw [reads, indexed, count]
  · rw [lastData, layout.infoCount, count]
  · rw [lastData, layout.infoSize]
  · exact ⟨parts, by rw [reads, read], whole⟩

/-- A file that is cut arrives: when all its messages are sent without a fault, among others of
that size, over a connection whose stream is read in whole events and stored with room in the
data block, a pass of the system of the destination leaves rows that give the file. -/
theorem file_arrives {root : Uuid} {own : SelfInfo} {known : List SysInfo} {ops : List Operation}
    {db u db' : Db} {env : Env} {js : Job} {fd : File} {si : SysInfo} {capacity : Int}
    (reached : run Db.perform (startDb root own known) ops = some db)
    (before : beforeSplit env db = .ok u) (cut : Chunks.ToCut u js fd si capacity)
    (fits : Chunks.Fits js fd capacity) (name : Clean (btrim js.jdestination))
    (done : runJobs env db = .ok db') {transmissions : List Transmission}
    (all : ((childrenOf db'.jobScheduler js.jobid).map Job.jobdata).Subperm
      (transmissions.map Transmission.message))
    (delivered : ∀ tr ∈ transmissions, tr.Delivered ∧ (tr.message.length : Int) = capacity)
    {sizes : Int → Nat} {streams : Int → Bytea} {events : List Framing.Event} {socket : Int}
    {r : Framing.State} (agreed : (sizes socket : Int) = capacity)
    (stream : streams socket = (transmissions.map Transmission.wire).flatten)
    (received : Received sizes streams events socket r) {there there' : Db}
    {actions : List DataBlock.Action} {t : DataBlock.State} {env' : Env} (keys : there.Keys)
    (home : lpad (btrim js.jdestination) 5 ∈ rootDestinations there)
    (stored : Stored there actions r.sent t) (pass : runJobs env' t.db = .ok there') :
    ∃ pieces info, Holds there' fd.fileData js.jobid.text pieces info := by
  rw [runJobs_split] at done
  obtain ⟨u', before', rest⟩ := bind_ok.mp done
  obtain rfl := Except.ok.inj (before.symm.trans before')
  obtain ⟨v, split, managed⟩ := bind_ok.mp rest
  have tree : Tree root u := (Tree.reachable reached).beforeSplit before
  obtain ⟨chunks, info, numbers, number, children, made, enough⟩ := cut.children tree split
  -- what was made for the file
  obtain ⟨chunks', info', made', layout⟩ :=
    (Chunks.splitJob_layout_iff env cut number enough).mpr fits
  obtain ⟨rfl, rfl⟩ := Prod.mk.inj (Except.ok.inj (made.symm.trans made'))
  have fit : Routing.FitNames (btrim js.jsource) (btrim js.jdestination) :=
    fun _ _ _ _ => ⟨Chunks.not_mem_lpad fits.1.source, name⟩
  have addressed := addressed_split made cut.destination fit
  rw [(manageConns_frame managed).jobScheduler, children] at all
  -- what arrives, and what is stored
  have large := cut.large
  have wires : transmissions.map Transmission.wire = transmissions.map Transmission.message :=
    List.map_congr_left fun tr member => by
      obtain ⟨sent, size⟩ := delivered tr member
      exact wire_of_delivered sent (by omega)
  have messages : (r.sentOn socket).map NewmsgData.data = transmissions.map Transmission.message := by
    apply received_messages received (by omega) _ (wires ▸ stream)
    intro m member
    obtain ⟨tr, inside, rfl⟩ := List.mem_map.mp member
    have size := (delivered tr inside).2
    omega
  obtain ⟨fresh, appended, arrived, rows⟩ := stored_rows stored
  obtain ⟨order, perm, indexed, parts, read, whole⟩ := layout.reassembled
  have found : ((order ++ [info]).map Job.jobdata).Subperm (fresh.map Job.jobdata) := by
    have inside : ((r.sentOn socket).map NewmsgData.data).Subperm (fresh.map Job.jobdata) :=
      (List.filter_sublist.map NewmsgData.data).subperm.trans rows.symm.subperm
    have some := (messages ▸ all).trans inside
    exact ((perm.append_right [info]).map Job.jobdata).subperm.trans some
  obtain ⟨chosen, among, data⟩ := rows_of_subperm found
  have ready : ∀ job ∈ chosen, job.jstate = .N1 ∧ Routing.Accepted job.jobdata ∧
      ¬ Routing.Answered job.jobdata ∧ messageDestination job.jobdata ∈ rootDestinations t.db := by
    intro job member
    have listed : job.jobdata ∈ (order ++ [info]).map Job.jobdata :=
      data ▸ List.mem_map_of_mem member
    obtain ⟨message, inside, same⟩ := List.mem_map.mp listed
    have present : message ∈ info :: chunks := by
      rcases List.mem_append.mp inside with piece | last
      · exact List.mem_cons_of_mem _ (perm.subset piece)
      · exact List.mem_singleton.mp last ▸ List.mem_cons_self
    have type : ¬ Routing.Answered message.jobdata := by
      unfold Routing.Answered
      rcases List.mem_cons.mp present with rfl | piece
      · rw [layout.infoType]
        decide
      · rw [layout.types message piece]
        decide
    have mine : Addressed (btrim js.jdestination) message.jobdata := addressed message present
    rw [← same]
    refine ⟨arrived job (among.subset member), mine.accepted, type, mine.own ▸ ?_⟩
    obtain ⟨top, rooted, name⟩ := List.mem_map.mp home
    obtain ⟨before, self⟩ := List.mem_filter.mp rooted
    refine List.mem_map.mpr ⟨top, List.mem_filter.mpr ⟨?_, self⟩, name⟩
    rw [appended]
    exact List.mem_append_left fresh before
  have kept : t.db.Keys := run_keeps (fun _ _ _ => keys_stored) keys stored.done
  have inside : chosen.Subperm t.db.jobScheduler :=
    among.trans (appended ▸ (List.sublist_append_right _ _).subperm)
  obtain ⟨last, shown, apart, waits⟩ := passed_rows kept pass inside ready
  rw [data, List.map_append] at shown
  obtain ⟨pieces, tail, rfl, pieceData, tailData⟩ := List.map_eq_append_iff.mp shown
  obtain ⟨message, rfl, infoData⟩ := List.map_eq_singleton_iff.mp tailData
  refine ⟨pieces, message, holds_of_layout layout perm indexed read whole pieceData infoData ?_ ?_⟩
  · exact (List.perm_append_singleton message pieces).nodup_iff.mp apart
  · intro job member
    exact waits job ((List.perm_append_singleton message pieces).mem_iff.mpr member)

section Samples

open Chunks (cutStates cutStates_some sending sentJob sampleFile ToCut)

def crossing : List Bytea :=
  ((cutStates (ascii "5")).map fun states =>
    (childrenOf states.2.2.jobScheduler (Uuid.ofNat 1)).map Job.jobdata).getD []

def m1Db : Db := Db.installed (Uuid.ofNat 0) ⟨ascii "   M1", 16843009, 6101, 180⟩

def crossingEvents : List Framing.Event := [⟨7, [180]⟩, ⟨7, [100, 80, 180]⟩]

def crossingActions : List DataBlock.Action :=
  crossing.flatMap (fun m => [.sendToProcessor 7 m, .lockWriter, .attempt, .unlockWriter]) ++
    (List.range 3).flatMap fun i => [.waitSignal, .lockReader, .getData (Uuid.ofNat (10 + i))]

theorem crossing_received :
    ∃ r, Received (fun _ => 180) (fun _ => crossing.flatten) crossingEvents 7 r ∧
      r.sent = crossing.map fun m => ⟨7, 180, m⟩ := by
  obtain ⟨r, done, read⟩ := Option.map_eq_some_iff.mp
    (by decide +kernel : (Framing.runReceiver (fun _ => 180) ⟨fun _ => crossing.flatten, []⟩
      crossingEvents).map (fun r => (r.sent, r.streams 7)) =
        some (crossing.map fun m => ⟨7, 180, m⟩, []))
  obtain ⟨sent, consumed⟩ := Prod.mk.inj read
  exact ⟨r, ⟨done, consumed, by decide⟩, sent⟩

theorem crossing_stored :
    ∃ t there', Stored m1Db crossingActions (crossing.map fun m => ⟨7, 180, m⟩) t ∧
      runJobs sampleEnv t.db = .ok there' := by
  obtain ⟨t, done, known⟩ := Option.map_eq_some_iff.mp
    (by decide +kernel : (run DataBlock.step (DataBlock.initial m1Db) crossingActions).map
      (fun t => (t.inFlight.length, (runJobs sampleEnv t.db).isOk)) = some (0, true))
  obtain ⟨none, ok⟩ := Prod.mk.inj known
  obtain ⟨there', pass⟩ := isOk_iff.mp ok
  have calls : outputs DataBlock.step DataBlock.passed (DataBlock.initial m1Db) crossingActions =
      crossing.map fun m => ⟨7, 180, m⟩ := by decide +kernel
  have dropped : outputs DataBlock.step DataBlock.dropped (DataBlock.initial m1Db)
      crossingActions = [] := by decide +kernel
  have drained : t.inFlight = [] := List.eq_nil_of_length_eq_zero none
  exact ⟨t, there', stored_of_dropped done calls dropped drained, pass⟩

theorem crossing_arrives :
    ∃ t there' pieces info, Stored m1Db crossingActions (crossing.map fun m => ⟨7, 180, m⟩) t ∧
      runJobs sampleEnv t.db = .ok there' ∧
      Holds there' sampleFile.fileData (Uuid.ofNat 1).text pieces info := by
  obtain ⟨db, u, db', reached, before, done, holds⟩ := cutStates_some (ascii "5")
    (fun u db' => decide (ToCut u (sentJob (ascii "5")) sampleFile (m1At 16843009) 180) &&
      decide ((childrenOf db'.jobScheduler (Uuid.ofNat 1)).map Job.jobdata = crossing))
    (by decide +kernel)
  simp only [Bool.and_eq_true, decide_eq_true_eq] at holds
  obtain ⟨cut, children⟩ := holds
  obtain ⟨r, received, calls⟩ := crossing_received
  obtain ⟨t, there', stored, pass⟩ := crossing_stored
  have sizes : ∀ m ∈ crossing, m.length = 180 := by decide +kernel
  let transmissions : List Transmission :=
    crossing.map fun m => ⟨m, fun a => m.getD a.toNat 0, [(m.length : Int)]⟩
  have messages : transmissions.map Transmission.message = crossing := by
    simp only [transmissions, List.map_map]
    exact List.map_id crossing
  have delivered : ∀ tr ∈ transmissions, tr.Delivered ∧ (tr.message.length : Int) = 180 := by
    intro tr member
    obtain ⟨m, inside, rfl⟩ := List.mem_map.mp member
    have size := sizes m inside
    exact ⟨delivered_whole (by omega), by dsimp only; omega⟩
  have wires : transmissions.map Transmission.wire = crossing := by
    rw [← messages]
    refine List.map_congr_left fun tr member => ?_
    obtain ⟨sent, size⟩ := delivered tr member
    exact wire_of_delivered sent (by omega)
  have keys : m1Db.Keys := ⟨by decide, by decide⟩
  have all : ((childrenOf db'.jobScheduler (Uuid.ofNat 1)).map Job.jobdata).Subperm
      (transmissions.map Transmission.message) := by
    rw [messages, children]
  have taken : Stored m1Db crossingActions r.sent t := by rwa [calls]
  have stream : crossing.flatten = (transmissions.map Transmission.wire).flatten := by rw [wires]
  have fits : Chunks.Fits (sentJob (ascii "5")) sampleFile 180 :=
    ⟨⟨by decide, by decide, by decide⟩, by decide, by decide⟩
  have name : Clean (btrim (sentJob (ascii "5")).jdestination) := by decide
  have home : lpad (btrim (sentJob (ascii "5")).jdestination) 5 ∈ rootDestinations m1Db := by decide
  have arrives : ∃ pieces info, Holds there' sampleFile.fileData (Uuid.ofNat 1).text pieces info := by
    refine file_arrives reached before cut fits name done all delivered ?_ ?_ received keys home
      taken pass
    · rfl
    · exact stream
  obtain ⟨pieces, info, known⟩ := arrives
  exact ⟨t, there', pieces, info, stored, pass, known⟩

end Samples

end Delivery

end FileSharing
