import FileSharing.Database.Idle
import FileSharing.Database.Inserts

/-! When the statements about requests and replies raise nothing. -/

namespace FileSharing

open Library RunJobs Completion

namespace Commits

structure RequestSafe (env : Env) (db : Db) : Prop where
  name : connInfoSending db ≠ [] → Castable db.selfinfo.systemName
  destinations : ∀ row ∈ connInfoSending db, Castable row.1.systemName
  ids : Fresh db (drawn env 0 (connInfoSending db).length)

def AddressFree (db : Db) (r : Request) : Prop :=
  (∃ si ∈ db.sysinfo, si.systemName = rtrim (lpad r.sourceName 5) ∧ si.ipaddress = r.sourceIp) ∨
    ∀ si ∈ db.sysinfo, si.ipaddress ≠ r.sourceIp

structure Answerable (env : Env) (db : Db) (request : Job) : Prop where
  learned : ∃ r, requestOf request = .ok r ∧ AddressFree db r
  name : Castable db.selfinfo.systemName
  source : Castable (messageSource request.jobdata)
  id : env.uuid 1 0 ∉ db.jobids

structure AnswerSafe (env : Env) (db : Db) : Prop where
  single : (pending "4" db).length ≤ 1
  requests : ∀ request ∈ pending "4" db, Answerable env db request

def ReplyReadable (db : Db) (reply : Job) : Prop :=
  ∃ address, int8in (addressField reply.jobdata) = .ok address ∧
    ∀ si ∈ db.sysinfo, messageSource reply.jobdata = si.systemName → address = si.ipaddress →
      Succeeds (capacityField reply.jobdata) ∧ Succeeds (portField reply.jobdata)

structure ReplySafe (db : Db) : Prop where
  readable : ∀ reply ∈ pending "5" db, ReplyReadable db reply
  single : db.sysinfo.any waiting = true → ∀ rows, cteSysinfo db = .ok rows → rows.length ≤ 1

section Promote

variable {env : Env} {db u : Db}

theorem connInfoSending_update {condition : Job → Bool} {change : Job → Job}
    (other : ∀ job, condition job = true → job.jstate ≠ .S ∧ (change job).jstate ≠ .S) :
    connInfoSending (db.updateJobs condition change) = connInfoSending db := by
  unfold connInfoSending
  congr 1
  funext si
  refine congrArg _ (filter_unchanged fun job either => ?_)
  by_cases holds : condition job = true
  · rw [if_pos holds] at either
    simp [other job holds] at either
  · rw [if_neg holds]

theorem connInfoSending_receive (db : Db) : connInfoSending (receive db) = connInfoSending db := by
  unfold receive identifyType route checkHash
  dsimp only
  iterate 5
    rw [connInfoSending_update fun job holds => ?_]
  all_goals
    simp only [Bool.and_eq_true, decide_eq_true_eq] at holds
    simp [holds]

theorem connInfoSending_completed (completed : completeSplit db = .ok u) :
    connInfoSending (completeSingle u) = connInfoSending db := by
  have single : connInfoSending (completeSingle u) = connInfoSending u := by
    refine connInfoSending_update fun job holds => ?_
    simp only [Bool.and_eq_true, decide_eq_true_eq] at holds
    simp [holds]
  rw [single]
  cases completeSplit_ok completed with
  | inl same => rw [same.2]
  | inr changed =>
      obtain ⟨parents, -, rfl⟩ := changed
      refine connInfoSending_update fun job holds => ?_
      simp only [Bool.and_eq_true, decide_eq_true_eq] at holds
      simp [holds]

theorem succeeds_completeSplit : Succeeds (completeSplit db) ↔ Repetition.Completes db := by
  unfold completeSplit Repetition.Completes
  rw [← Repetition.completedParents_iff_readable]
  split
  · next waits =>
      have some : ¬ ∀ job ∈ db.jobScheduler, job.jstate ≠ .S2W := by
        obtain ⟨job, member, state⟩ := List.any_eq_true.mp waits
        exact fun none => none job member (of_decide_eq_true state)
      rw [succeeds_return, or_iff_right some]
      exact Iff.rfl
  · next nothing =>
      refine iff_of_true (succeeds_pure _) (.inl fun job member waits => nothing ?_)
      exact List.any_eq_true.mpr ⟨job, member, decide_eq_true waits⟩

theorem succeeds_requestConsensus (keys : db.Keys) :
    Succeeds (requestConsensus env db) ↔ RequestSafe env db := by
  have known {row : SysInfo × Job} (member : row ∈ connInfoSending db) :
      row.2 ∈ db.jobScheduler := by
    obtain ⟨si, -, inside⟩ := List.mem_flatMap.mp member
    obtain ⟨js, chosen, rfl⟩ := List.mem_map.mp inside
    exact (List.mem_filter.mp chosen).1
  have type : Clean (ascii "4") := by decide
  have inserts : Succeeds (requestConsensus env db) ↔
      (∀ row ∈ connInfoSending db,
        Castable db.selfinfo.systemName ∧ Castable row.1.systemName) ∧
      Fresh db (drawn env 0 (connInfoSending db).length) := by
    apply succeeds_insert
    · exact fun row _ i => succeeds_consensusJob type
    · exact fun row member i job made => ⟨(consensusJob_row made).1,
        (consensusJob_row made).2.2.2.1 ▸ keys.parents _ (known member)⟩
  apply inserts.trans
  constructor
  · rintro ⟨each, fresh⟩
    refine ⟨fun some => ?_, fun row member => (each row member).2, fresh⟩
    obtain ⟨row, member⟩ := List.exists_mem_of_ne_nil _ some
    exact (each row member).1
  · intro safe
    exact ⟨fun row member => ⟨safe.name (List.ne_nil_of_mem member),
      safe.destinations row member⟩, safe.ids⟩

theorem RequestSafe.frame (safe : RequestSafe env db)
    (rows : connInfoSending u = connInfoSending db) (self : u.selfinfo = db.selfinfo)
    (ids : u.jobids = db.jobids) : RequestSafe env u := by
  have fresh := safe.ids
  unfold Fresh at fresh
  constructor
  · rw [rows, self]
    exact safe.name
  · rw [rows]
    exact safe.destinations
  · rwa [rows, Fresh, ids]

theorem jobids_evolves {w : Scope} (evolves : Evolves w (fun _ => False) db u) :
    u.jobids = db.jobids := by
  obtain ⟨-, change, fresh, kept, rows, none⟩ := evolves
  have nothing : fresh = [] := List.eq_nil_iff_forall_not_mem.mpr none
  rw [Db.jobids, rows, nothing, List.append_nil, List.map_map, Db.jobids]
  exact List.map_congr_left fun job _ => (kept job).jobid

theorem succeeds_promote (keys : db.Keys) :
    Succeeds (promote env db) ↔ Repetition.Completes (receive db) ∧ RequestSafe env db := by
  have rest (v : Db) (completed : completeSplit (receive db) = .ok v) :
      Succeeds (requestConsensus env (completeSingle v) >>= fun db => return startKnown db) ↔
        RequestSafe env db := by
    obtain ⟨first, onlyFirst⟩ : Evolves ⟨true, false⟩ (fun _ => False) db (receive db) ∧ _ :=
      receive_ok db
    obtain ⟨second, onlySecond⟩ : Evolves ⟨true, false⟩ (fun _ => False) (receive db) v ∧ _ :=
      evolves_completeSplit rfl completed
    have evolves := (first.trans (fun _ => False.elim) second).trans (fun _ => False.elim)
      (evolves_completeSingle v)
    have rows := (connInfoSending_completed completed).trans (connInfoSending_receive db)
    have self : (completeSingle v).selfinfo = db.selfinfo :=
      ((onlyFirst.trans onlySecond).trans (onlyJobs_update _ _ _)).selfinfo
    have ids := jobids_evolves evolves
    calc
      Succeeds (requestConsensus env (completeSingle v) >>= fun db => return startKnown db) ↔
          Succeeds (requestConsensus env (completeSingle v)) := succeeds_return
      _ ↔ RequestSafe env (completeSingle v) := succeeds_requestConsensus (evolves.1 keys)
      _ ↔ RequestSafe env db := ⟨fun safe => safe.frame rows.symm self.symm ids.symm,
        fun safe => safe.frame rows self ids⟩
  calc
    Succeeds (promote env db) ↔ Succeeds (completeSplit (receive db)) ∧
        ∀ v, completeSplit (receive db) = .ok v → Succeeds
          (requestConsensus env (completeSingle v) >>= fun db => return startKnown db) :=
      succeeds_bind
    _ ↔ Succeeds (completeSplit (receive db)) ∧ RequestSafe env db := by
      apply and_congr_right
      rintro ⟨v, completed⟩
      exact ⟨fun each => (rest v completed).mp (each v completed),
        fun safe v completed => (rest v completed).mpr safe⟩
    _ ↔ Repetition.Completes (receive db) ∧ RequestSafe env db :=
      and_congr_left' succeeds_completeSplit

end Promote

section Consensus

variable {env : Env} {db u : Db} {request : Job} {r : Request}

theorem succeeds_scalar {α : Type} {xs : List α} : Succeeds (scalar xs) ↔ xs.length ≤ 1 := by
  constructor
  · rintro ⟨found, done⟩
    rw [scalar_ok done]
    exact Option.length_toList_le
  · intro short
    cases xs with
    | nil => exact succeeds_pure _
    | cons x rest =>
        rw [List.length_cons] at short
        obtain rfl : rest = [] := List.length_eq_zero_iff.mp (by omega)
        exact succeeds_pure _

theorem succeeds_upsertSysinfo {capacity : Option Int} :
    Succeeds (upsertSysinfo [(r, capacity)] db (r, capacity)) ↔ AddressFree db r := by
  unfold upsertSysinfo AddressFree
  dsimp only
  split
  · next known =>
      obtain ⟨si, member, test⟩ := List.any_eq_true.mp known
      simp only [Bool.and_eq_true, decide_eq_true_eq] at test
      refine iff_of_true ?_ (.inl ⟨si, member, test⟩)
      rw [succeeds_return, succeeds_scalar]
      exact List.length_filter_le _ _
  · next other =>
      have none : ¬ ∃ si ∈ db.sysinfo, si.systemName = rtrim (lpad r.sourceName 5) ∧
          si.ipaddress = r.sourceIp := by
        rintro ⟨si, member, same⟩
        exact other (List.any_eq_true.mpr ⟨si, member, by simpa using same⟩)
      rw [or_iff_right none]
      split
      · next taken =>
          obtain ⟨si, member, same⟩ := List.any_eq_true.mp taken
          refine iff_of_false ?_ fun free => free si member (of_decide_eq_true same)
          rintro ⟨u, done⟩
          cases done
      · next free =>
          refine iff_of_true (succeeds_pure _) fun si member same => free ?_
          exact List.any_eq_true.mpr ⟨si, member, decide_eq_true same⟩

theorem succeeds_answerRequests (keys : db.Keys) :
    Succeeds (answerRequests env db) ↔ AnswerSafe env db := by
  have type : Clean (ascii "5") := by decide
  constructor
  · rintro ⟨db', done⟩
    rcases answerRequests_ok done with ⟨none, -⟩ | ⟨request, r, reply, u, v, one, read, written,
      made, inserted, -⟩
    · exact ⟨by simp [none], fun request member => by simp [none] at member⟩
    · refine ⟨by simp [one], fun other member => ?_⟩
      rw [one, List.mem_singleton] at member
      subst member
      obtain ⟨name, source⟩ := (succeeds_consensusJob type).mp ⟨reply, made⟩
      refine ⟨⟨r, read, succeeds_upsertSysinfo.mp ⟨u, written⟩⟩, name, source, ?_⟩
      have fresh := (insertJob_ok inserted).2.2.1
      have frame := upsertSysinfo_frame written
      rwa [(consensusJob_row made).1, Db.jobids, frame.jobScheduler] at fresh
  · intro safe
    cases requests : pending "4" db with
    | nil =>
        refine ⟨finishPending "4" db, ?_⟩
        rw [answerRequests, learnRequests_nil requests]
        exact bind_ok.mpr ⟨db, rfl, bind_ok.mpr ⟨db, queueReplies_nil requests, rfl⟩⟩
    | cons request rest =>
        have member : request ∈ pending "4" db := requests ▸ List.mem_cons_self
        have short := safe.single
        rw [requests, List.length_cons] at short
        obtain rfl : rest = [] := List.length_eq_zero_iff.mp (by omega)
        obtain ⟨⟨r, read, free⟩, name, source, fresh⟩ := safe.requests request member
        obtain ⟨u, written⟩ := succeeds_upsertSysinfo.mpr free
        have frame := upsertSysinfo_frame written
        have same : pending "4" u = [request] := by
          rw [← requests, pending, frame.jobScheduler, pending]
        obtain ⟨asked, field, -⟩ := bind_ok.mp read
        obtain ⟨reply, made⟩ : Succeeds (replyTo env u request asked) :=
          (succeeds_consensusJob type).mpr ⟨frame.selfinfo ▸ name, source⟩
        obtain ⟨id, -, -, parent, -⟩ := consensusJob_row made
        obtain ⟨v, inserted⟩ : Succeeds (u.insertJob reply) := by
          apply insertJob_total
          · rwa [id, Db.jobids, frame.jobScheduler]
          · rw [parent, Db.jobids, frame.jobScheduler]
            exact keys.parents request (List.mem_filter.mp member).1
        have learned : learnRequests db = .ok u := by
          rw [learnRequests_one requests]
          exact bind_ok.mpr ⟨r, read, written⟩
        have queued : queueReplies env u = .ok v := by
          rw [queueReplies_one same]
          exact bind_ok.mpr ⟨asked, field, bind_ok.mpr ⟨reply, made, inserted⟩⟩
        exact ⟨_, bind_ok.mpr ⟨u, learned, bind_ok.mpr ⟨v, queued, rfl⟩⟩⟩

theorem succeeds_cteRow {reply : Job} : Succeeds (cteRow db reply) ↔ ReplyReadable db reply := by
  have each (address : Int) : Succeeds ((db.sysinfo.filter fun si =>
      messageSource reply.jobdata = si.systemName && address = si.ipaddress).mapM fun _ => do
        let capacity ← capacityField reply.jobdata
        let port ← portField reply.jobdata
        return (capacity, port)) ↔
      ∀ si ∈ db.sysinfo, messageSource reply.jobdata = si.systemName → address = si.ipaddress →
        Succeeds (capacityField reply.jobdata) ∧ Succeeds (portField reply.jobdata) := by
    rw [succeeds_mapM]
    simp only [List.mem_filter, Bool.and_eq_true, decide_eq_true_eq, and_imp, succeeds_bind]
    constructor
    · intro all si member name same
      obtain ⟨⟨capacity, field⟩, later⟩ := all si member name same
      exact ⟨⟨capacity, field⟩, (later capacity field).1⟩
    · intro all si member name same
      obtain ⟨first, second⟩ := all si member name same
      exact ⟨first, fun _ _ => ⟨second, fun _ _ => succeeds_pure _⟩⟩
  unfold cteRow ReplyReadable
  rw [succeeds_bind]
  constructor
  · rintro ⟨⟨address, read⟩, later⟩
    exact ⟨address, read, (each address).mp (later address read)⟩
  · rintro ⟨address, read, all⟩
    refine ⟨⟨address, read⟩, fun address' again => ?_⟩
    obtain rfl := Except.ok.inj (read.symm.trans again)
    exact (each address).mpr all

theorem succeeds_takeReplies : Succeeds (takeReplies db) ↔ ReplySafe db := by
  have read : Succeeds (cteSysinfo db) ↔ ∀ reply ∈ pending "5" db, ReplyReadable db reply := by
    rw [cteSysinfo, succeeds_return, succeeds_mapM]
    exact forall₂_congr fun reply _ => succeeds_cteRow
  have applied (cte : List (Int × Int)) : Succeeds (if cte.isEmpty || !db.sysinfo.any waiting then
      return db else do
        let found ← scalar cte
        return writeSysinfo db waiting fun si => { si with
          systemCapacity := found.map Prod.fst, dataport := found.map Prod.snd }) ↔
      (db.sysinfo.any waiting = true → cte.length ≤ 1) := by
    split
    · next nothing =>
        refine iff_of_true (succeeds_pure _) fun waits => ?_
        simp only [waits, Bool.not_true, Bool.or_false, List.isEmpty_iff] at nothing
        simp [nothing]
    · next something =>
        have waits : db.sysinfo.any waiting = true := by
          by_contra none
          exact something (by simp [none])
        rw [succeeds_return, succeeds_scalar]
        exact ⟨fun done _ => done, fun done => done waits⟩
  calc
    Succeeds (takeReplies db) ↔ Succeeds (applyReplies db) := by
      rw [takeReplies, succeeds_return]
    _ ↔ Succeeds (cteSysinfo db) ∧ ∀ cte, cteSysinfo db = .ok cte →
        (db.sysinfo.any waiting = true → cte.length ≤ 1) := by
      rw [applyReplies, succeeds_bind]
      exact and_congr_right' (forall₂_congr fun cte _ => applied cte)
    _ ↔ ReplySafe db := by
      constructor
      · rintro ⟨first, second⟩
        exact ⟨read.mp first, fun waits rows same => second rows same waits⟩
      · intro safe
        exact ⟨read.mpr safe.readable, fun cte same waits => safe.single waits cte same⟩

end Consensus

end Commits

end FileSharing
