import FileSharing.Database.Replies
import FileSharing.Database.Routing
import FileSharing.Sender.Connections

/-! One of two systems that know only each other: its consensus messages, and what a pass of
`run_jobs` makes of them. -/

namespace FileSharing

open Library RunJobs

namespace Awaiting

inductive Kind where
  | request
  | reply
  deriving DecidableEq, Repr

namespace Kind

def digit : Kind → String
  | request => "4"
  | reply => "5"

def type (kind : Kind) : Text := ascii kind.digit

def capacity (kind : Kind) (me peer : SelfInfo) : Int :=
  match kind with
  | .request => me.systemCapacity
  | .reply => min me.systemCapacity peer.systemCapacity

theorem plain (kind : Kind) : Plain kind.type := by
  cases kind with
  | request => decide
  | reply => decide

theorem type_inj {kind kind' : Kind} (same : kind.type = kind'.type) : kind = kind' := by
  revert same
  cases kind <;> cases kind' <;> decide

theorem typeField_inj {kind kind' : Kind} (same : typeField kind.digit = typeField kind'.digit) :
    kind = kind' := by
  revert same
  cases kind <;> cases kind' <;> decide

end Kind

structure MadeBy (kind : Kind) (me peer : SelfInfo) (data : Bytea) : Prop where
  plain : Plain data
  length : data.length = 147
  carries : Carries data kind.type me.systemName peer.systemName (kind.capacity me peer) me.dataport
    me.ipaddress

/-- A message for `me` of a type that no pass answers. -/
structure DataFor (me : SelfInfo) (data : Bytea) : Prop where
  destination : messageDestination data = me.systemName
  request : messageType data ≠ typeField "4"
  reply : messageType data ≠ typeField "5"

instance (me : SelfInfo) (data : Bytea) : Decidable (DataFor me data) :=
  decidable_of_iff (messageDestination data = me.systemName ∧ messageType data ≠ typeField "4" ∧
      messageType data ≠ typeField "5")
    ⟨fun h => ⟨h.1, h.2.1, h.2.2⟩, fun h => ⟨h.destination, h.request, h.reply⟩⟩

/-- What the peer can have put into N-1. -/
def Arrived (me peer : SelfInfo) (data : Bytea) : Prop :=
  (∃ kind, MadeBy kind peer me data) ∨ DataFor me data

structure Entry (peer : SelfInfo) (si : SysInfo) : Prop where
  systemName : si.systemName = peer.systemName
  ipaddress : si.ipaddress = peer.ipaddress
  agreed : si.systemCapacity = some 0 ∧ si.dataport = some 0 ∨
    ∃ capacity, si.systemCapacity = some capacity ∧ capacity ≠ 0

structure Config (own : SelfInfo) : Prop where
  name : IsName own.systemName
  capacity : IsInt4 own.systemCapacity
  dataport : 1 ≤ own.dataport ∧ own.dataport ≤ 65535
  ipaddress : 0 ≤ own.ipaddress ∧ own.ipaddress < 2 ^ 32

def Outgoing (me peer : SelfInfo) (db : Db) : Prop :=
  ∀ job ∈ db.jobScheduler, job.jstate = .S5 →
    ∃ kind : Kind, job.jtype = kind.type ∧ MadeBy kind me peer job.jobdata

structure SideInv (me peer : SelfInfo) (db : Db) : Prop where
  keys : db.Keys
  selfinfo : db.selfinfo = me
  addresses : (db.sysinfo.map SysInfo.ipaddress).Nodup
  entries : ∀ si ∈ db.sysinfo, Entry peer si
  root : ∃ top ∈ db.jobScheduler, top.jstate = .N0 ∧ top.jobid = top.jparentJobid ∧
    top.jdestination = me.systemName
  outgoing : Outgoing me peer db
  stored : ∀ job ∈ db.jobScheduler, Incoming job.jstate →
    job.jstate = .N1 ∧ Arrived me peer job.jobdata
  identified : ∀ job ∈ db.jobScheduler, job.jstate = .N4 → ∀ kind : Kind,
    job.jtype ≠ typeField kind.digit

def Waits (db : Db) : Prop :=
  ∃ job ∈ db.jobScheduler, job.jstate = .S1 ∧
    ∃ si ∈ db.sysinfo, si.systemName = job.jdestination ∧ si.systemCapacity = some 0

instance (db : Db) : Decidable (Waits db) :=
  inferInstanceAs (Decidable (∃ job ∈ db.jobScheduler, _))

def Queued (kind : Kind) (db : Db) : Prop :=
  ∃ job ∈ db.jobScheduler, job.jstate = .S5 ∧ job.jtype = kind.type

def Stored (kind : Kind) (db : Db) : Prop :=
  ∃ job ∈ db.jobScheduler, Incoming job.jstate ∧ messageType job.jobdata = typeField kind.digit

instance (kind : Kind) (db : Db) : Decidable (Queued kind db) :=
  inferInstanceAs (Decidable (∃ job ∈ db.jobScheduler, _))

instance (kind : Kind) (db : Db) : Decidable (Stored kind db) :=
  inferInstanceAs (Decidable (∃ job ∈ db.jobScheduler, _))

section Messages

variable {kind : Kind} {me peer : SelfInfo} {data : Bytea}

theorem MadeBy.type_eq (made : MadeBy kind me peer data) :
    messageType data = typeField kind.digit := made.carries.type

theorem MadeBy.destination_eq (made : MadeBy kind me peer data) (name : IsName peer.systemName) :
    messageDestination data = peer.systemName := by
  rw [made.carries.destination, lpad_of_length name.length]

theorem DataFor.other (data' : DataFor me data) (kind : Kind) :
    messageType data ≠ typeField kind.digit := by
  cases kind with
  | request => exact data'.request
  | reply => exact data'.reply

theorem Arrived.destination_eq (arrived : Arrived me peer data) (name : IsName me.systemName) :
    messageDestination data = me.systemName := by
  cases arrived with
  | inl message =>
      obtain ⟨kind, made⟩ := message
      exact made.destination_eq name
  | inr other => exact other.destination

theorem Arrived.made (arrived : Arrived me peer data)
    (type : messageType data = typeField kind.digit) : MadeBy kind peer me data := by
  cases arrived with
  | inl message =>
      obtain ⟨kind', made⟩ := message
      have same : kind' = kind := Kind.typeField_inj (made.type_eq.symm.trans type)
      exact same ▸ made
  | inr other => exact absurd type (other.other kind)

theorem madeBy_of_consensus {id parent : Uuid} {job : Job}
    (is : IsConsensus job id kind.type (kind.capacity me peer) me peer.systemName parent) :
    MadeBy kind me peer job.jobdata :=
  ⟨is.bytes, is.length, is.carries⟩

def content (kind : Kind) (me peer : SelfInfo) : Request :=
  ⟨kind.capacity me peer, me.dataport, me.ipaddress, me.systemName⟩

theorem capacity_range (mine : Config me) (theirs : Config peer) (kind : Kind) :
    IsInt4 (kind.capacity me peer) := by
  cases kind with
  | request => exact mine.capacity
  | reply =>
      rcases min_choice me.systemCapacity peer.systemCapacity with h | h
      · exact (congrArg IsInt4 h).mpr mine.capacity
      · exact (congrArg IsInt4 h).mpr theirs.capacity

theorem capacity_ne_zero (mine : me.systemCapacity ≠ 0) (theirs : peer.systemCapacity ≠ 0)
    (kind : Kind) : kind.capacity me peer ≠ 0 := by
  cases kind with
  | request => exact mine
  | reply =>
      rcases min_choice me.systemCapacity peer.systemCapacity with h | h
      · exact fun zero => mine (h.symm.trans zero)
      · exact fun zero => theirs (h.symm.trans zero)

theorem request_wellFormed {job : Job} (mine : Config me) (theirs : Config peer)
    (made : MadeBy .request peer me job.jobdata) :
    Requests.WellFormed me.systemName job (content .request peer me) :=
  ⟨made.carries, theirs.name, capacity_range theirs mine .request, theirs.dataport,
    theirs.ipaddress⟩

theorem reply_wellFormed {job : Job} (mine : Config me) (theirs : Config peer)
    (made : MadeBy .reply peer me job.jobdata) :
    Replies.WellFormed me.systemName job (content .reply peer me) :=
  ⟨made.carries, theirs.name, capacity_range theirs mine .reply, theirs.dataport,
    theirs.ipaddress⟩

end Messages

section Learns

variable {me peer : SelfInfo} {a b c db db' : Db}

def Learns (peer : SelfInfo) (db db' : Db) : Prop :=
  ∀ si ∈ db'.sysinfo, si ∈ db.sysinfo ∨ si.systemName = peer.systemName ∧
    si.ipaddress = peer.ipaddress ∧ ∃ capacity, si.systemCapacity = some capacity ∧ capacity ≠ 0

theorem Learns.of_eq (same : db'.sysinfo = db.sysinfo) : Learns peer db db' :=
  fun _ member => .inl (same ▸ member)

theorem Learns.trans (first : Learns peer a b) (second : Learns peer b c) : Learns peer a c := by
  intro si member
  cases second si member with
  | inl before => exact first si before
  | inr learned => exact .inr learned

theorem Learns.entries (learns : Learns peer db db') (old : ∀ si ∈ db.sysinfo, Entry peer si) :
    ∀ si ∈ db'.sysinfo, Entry peer si := by
  intro si member
  cases learns si member with
  | inl before => exact old si before
  | inr learned => exact ⟨learned.1, learned.2.1, .inr learned.2.2⟩

theorem Learns.zero (learns : Learns peer db db') {si : SysInfo} (member : si ∈ db'.sysinfo)
    (zero : si.systemCapacity = some 0) : si ∈ db.sysinfo := by
  cases learns si member with
  | inl before => exact before
  | inr learned =>
      obtain ⟨-, -, capacity, same, other⟩ := learned
      exact absurd (Option.some.inj (same.symm.trans zero)) other

theorem learns_upsert {r : Request} {capacity : Int} (name : IsName peer.systemName)
    (source : r.sourceName = peer.systemName) (address : r.sourceIp = peer.ipaddress)
    (some : capacity ≠ 0)
    (done : upsertSysinfo [(r, .some capacity)] db (r, .some capacity) = .ok db') :
    Learns peer db db' := by
  have whole : rtrim (lpad r.sourceName 5) = r.sourceName := by
    rw [source, lpad_of_length name.length, name.trimmed]
  rcases upsertSysinfo_ok done with ⟨found, read, -, rfl⟩ | ⟨new, rfl, -, rfl⟩
  · obtain rfl := (scalar_filter read).2 (by simp [whole])
    intro si member
    rw [(writeSysinfo_ok db _ _).2] at member
    obtain ⟨old, inside, rfl⟩ := List.mem_map.mp member
    split
    · next conflict =>
        simp only [whole, Bool.and_eq_true, decide_eq_true_eq] at conflict
        exact .inr ⟨conflict.1.trans source, conflict.2.trans address, capacity, rfl, some⟩
    · exact .inl inside
  · intro si member
    rw [(onlySysinfo_createComms _ _).2] at member
    cases List.mem_append.mp member with
    | inl old => exact .inl old
    | inr new =>
        rw [List.mem_singleton.mp new]
        exact .inr ⟨whole.trans source, address, capacity, rfl, some⟩

end Learns

section Pass

variable {env : Env} {me peer : SelfInfo} {db db' p u t b x y : Db} {kind : Kind}

theorem pending_made {w : Scope} (kind : Kind) (inv : SideInv me peer db) (evolves : Evolves w IsNewRow db p)
    {job : Job} (member : job ∈ pending kind.digit p) : MadeBy kind peer me job.jobdata := by
  obtain ⟨inside, state, type⟩ := Requests.mem_pending.mp member
  obtain ⟨-, change, fresh, kept, split, each⟩ := evolves
  rw [split] at inside
  cases List.mem_append.mp inside with
  | inl old =>
      obtain ⟨before, present, rfl⟩ := List.mem_map.mp old
      rcases Promotes.of_n4 (state ▸ (kept before).jstate) with same | incoming
      · have known := (kept before).jtype.resolve_right fun h => h.1.ne_n4 same
        exact absurd (known.symm.trans type) (inv.identified before present same kind)
      · have known := (kept before).identified incoming state
        rw [(kept before).jobdata]
        exact (inv.stored before present incoming).2.made (known.symm.trans type)
  | inr new =>
      rcases each job new with ready | ready
      · cases ready.symm.trans state
      · cases ready.symm.trans state

theorem promoted_of (stages : Repetition.Stages env db u t b x y db') :
    promote env db = .ok (startKnown t) :=
  bind_ok.mpr ⟨u, stages.completed, bind_ok.mpr ⟨t, stages.requested, rfl⟩⟩

theorem evolves_promote (stages : Repetition.Stages env db u t b x y db') :
    Evolves every (IsRequestRow env db) db (startKnown t) ∧ OnlyJobs db (startKnown t) :=
  promote_ok rfl (promoted_of stages)

theorem evolves_answered (stages : Repetition.Stages env db u t b x y db') :
    Evolves every IsNewRow db b :=
  ((evolves_promote stages).1.mono fun _ => IsRequestRow.new).trans (fun _ => IsNewRow.fixed)
    (evolves_answerRequests stages.answered)

theorem learns_answered (mine : Config me) (theirs : Config peer) (some : me.systemCapacity ≠ 0)
    (some' : peer.systemCapacity ≠ 0) (inv : SideInv me peer db)
    (stages : Repetition.Stages env db u t b x y db') : Learns peer (startKnown t) b := by
  obtain ⟨evolves, only⟩ := evolves_promote stages
  rcases answerRequests_ok stages.answered with ⟨-, rfl⟩ | ⟨request, r, reply, v, v', one, read,
    written, -, inserted, rfl⟩
  · exact .of_eq rfl
  · have member : request ∈ pending "4" (startKnown t) := one ▸ List.mem_singleton.mpr rfl
    have made : MadeBy .request peer me request.jobdata :=
      pending_made .request inv (evolves.mono fun _ => IsRequestRow.new) member
    have well := request_wellFormed mine theirs made
    have same := Requests.requestOf_eq well (Requests.requestOf_small well read)
    obtain rfl := Except.ok.inj (same.symm.trans read)
    have learned : Learns peer (startKnown t) v := by
      refine learns_upsert theirs.name rfl rfl ?_ written
      rw [only.selfinfo, inv.selfinfo, Requests.smaller_eq_min, min_comm]
      exact capacity_ne_zero some some' .reply
    exact learned.trans (.of_eq (insertJob_ok inserted).2.1.sysinfo)

theorem replies_wellFormed (mine : Config me) (theirs : Config peer) (inv : SideInv me peer db)
    (stages : Repetition.Stages env db u t b x y db') :
    List.Forall₂ (Replies.WellFormed me.systemName) (pending "5" b)
      ((pending "5" b).map fun _ => content .reply peer me) := by
  rw [List.forall₂_map_right_iff]
  apply List.forall₂_same.mpr
  intro job member
  exact reply_wellFormed mine theirs
    (pending_made .reply inv (evolves_answered stages) member)

theorem sysinfo_answered (stages : Repetition.Stages env db u t b x y db') :
    db'.sysinfo = x.sysinfo :=
  ((manageConns_frame stages.managed).sysinfo).trans
    (splitJobs_ok (w := every) rfl stages.split).2.sysinfo

theorem learns_replied (mine : Config me) (theirs : Config peer) (some : me.systemCapacity ≠ 0)
    (some' : peer.systemCapacity ≠ 0) (inv : SideInv me peer db)
    (stages : Repetition.Stages env db u t b x y db')
    (addresses : (b.sysinfo.map SysInfo.ipaddress).Nodup) (entries : ∀ si ∈ b.sysinfo, Entry peer si) :
    Learns peer b x ∧ ((∃ job, job ∈ pending "5" b) →
      ∀ si ∈ x.sysinfo, si.systemCapacity ≠ .some 0) := by
  obtain ⟨v, applied, rfl⟩ := takeReplies_ok stages.replied
  have table : (finishPending "5" v).sysinfo = v.sysinfo := (onlyJobs_update _ _ _).sysinfo
  have waits {si : SysInfo} (member : si ∈ b.sysinfo) (zero : si.systemCapacity = .some 0) :
      waiting si = true := by
    rcases (entries si member).agreed with ⟨-, port⟩ | ⟨capacity, same, other⟩
    · simp [waiting, zero, port]
    · exact absurd (Option.some.inj (same.symm.trans zero)) other
  rw [Learns, table]
  rcases Replies.applyReplies_cases addresses (replies_wellFormed mine theirs inv stages) with
    ⟨nothing, same⟩ | ⟨r, one, same⟩ | ⟨-, -, same⟩
  · obtain rfl := Except.ok.inj (same.symm.trans applied)
    refine ⟨fun si member => .inl member, fun pending si member zero => ?_⟩
    cases nothing with
    | inl none =>
        obtain ⟨job, inside⟩ := pending
        have listed : content .reply peer me ∈ (pending "5" b).map fun _ => content .reply peer me :=
          List.mem_map.mpr ⟨job, inside, rfl⟩
        have known := Replies.mem_known.mpr ⟨listed, si, member,
          (entries si member).systemName.symm, (entries si member).ipaddress.symm⟩
        rw [none] at known
        cases known
    | inr settled => cases (settled si member).symm.trans (waits member zero)
  · obtain rfl := Except.ok.inj (same.symm.trans applied)
    have inside : r ∈ (pending "5" b).map fun _ => content .reply peer me :=
      (Replies.mem_known.mp (one ▸ List.mem_singleton.mpr rfl)).1
    obtain ⟨-, -, rfl⟩ := List.mem_map.mp inside
    have other := capacity_ne_zero some' some .reply
    rw [(writeSysinfo_ok b waiting _).2]
    constructor
    · intro si member
      obtain ⟨old, before, rfl⟩ := List.mem_map.mp member
      split
      · have entry := entries old before
        exact .inr ⟨entry.systemName, entry.ipaddress, _, rfl, other⟩
      · exact .inl before
    · intro _ si member zero
      obtain ⟨old, before, rfl⟩ := List.mem_map.mp member
      split at zero
      · exact other (Option.some.inj zero)
      · next settled => exact settled (waits before zero)
  · cases same.symm.trans applied

theorem learns_pass (mine : Config me) (theirs : Config peer) (some : me.systemCapacity ≠ 0)
    (some' : peer.systemCapacity ≠ 0) (inv : SideInv me peer db)
    (stages : Repetition.Stages env db u t b x y db') :
    Learns peer db db' ∧ ((∃ job, job ∈ pending "5" b) →
      ∀ si ∈ db'.sysinfo, si.systemCapacity ≠ .some 0) := by
  have start : Learns peer db b :=
    Learns.trans (.of_eq (evolves_promote stages).2.sysinfo)
      (learns_answered mine theirs some some' inv stages)
  have addresses : (b.sysinfo.map SysInfo.ipaddress).Nodup := by
    apply (SenderSide.known_answerRequests stages.answered).addresses
    rw [(evolves_promote stages).2.sysinfo]
    exact inv.addresses
  obtain ⟨learned, settled⟩ := learns_replied mine theirs some some' inv stages addresses
    (start.entries inv.entries)
  rw [Learns, sysinfo_answered stages]
  exact ⟨start.trans learned, settled⟩

theorem outgoing_evolves {w : Scope} {made : Job → Prop} (old : Outgoing me peer db)
    (evolves : Evolves w made db db')
    (fresh : ∀ job, made job → job.jstate = .S5 →
      ∃ kind : Kind, job.jtype = kind.type ∧ MadeBy kind me peer job.jobdata) :
    Outgoing me peer db' := by
  obtain ⟨-, change, rows, kept, split, each⟩ := evolves
  intro job member state
  rw [split] at member
  cases List.mem_append.mp member with
  | inl inside =>
      obtain ⟨before, present, rfl⟩ := List.mem_map.mp inside
      have queued := Promotes.of_s5 (state ▸ (kept before).jstate)
      rw [(kept before).fixed (queued ▸ fixed_s5)]
      exact old before present queued
  | inr new => exact fresh job (each job new) state

theorem requests_made (mine : Config me) (theirs : Config peer) (inv : SideInv me peer db) {job : Job}
    (row : IsRequestRow env db job) :
    ∃ kind : Kind, job.jtype = kind.type ∧ MadeBy kind me peer job.jobdata := by
  obtain ⟨i, si, member, js, -, -, made⟩ := row
  rw [(inv.entries si member).systemName, inv.selfinfo] at made
  have is := consensusJob_ok (Kind.plain .request) mine.name.plain theirs.name.plain made
  exact ⟨.request, is.jtype, madeBy_of_consensus is⟩

theorem outgoing_answered (mine : Config me) (theirs : Config peer) (inv : SideInv me peer db)
    (stages : Repetition.Stages env db u t b x y db') : Outgoing me peer b := by
  obtain ⟨evolves, only⟩ := evolves_promote stages
  have start : Outgoing me peer (startKnown t) :=
    outgoing_evolves inv.outgoing evolves fun job row _ => requests_made mine theirs inv row
  rcases answerRequests_ok stages.answered with ⟨-, rfl⟩ | ⟨request, r, reply, v, v', one, read,
    written, made, inserted, rfl⟩
  · exact outgoing_evolves start
      (evolves_finishPending "4" _ : Evolves every (fun _ => False) _ _) fun _ none => none.elim
  · have frame := upsertSysinfo_frame written
    have member : request ∈ pending "4" (startKnown t) := one ▸ List.mem_singleton.mpr rfl
    have asked : MadeBy .request peer me request.jobdata :=
      pending_made .request inv (evolves.mono fun _ => IsRequestRow.new) member
    have well := request_wellFormed mine theirs asked
    have same := Requests.requestOf_eq well (Requests.requestOf_small well read)
    obtain rfl := Except.ok.inj (same.symm.trans read)
    rw [replyTo, Requests.messageSource_eq well, only.selfinfo, inv.selfinfo,
      Requests.smaller_eq_min, min_comm] at made
    have is := consensusJob_ok (Kind.plain .reply) mine.name.plain theirs.name.plain made
    have queued : Outgoing me peer v' := by
      intro job inside state
      rw [(insertJob_ok inserted).1, frame.jobScheduler] at inside
      cases List.mem_append.mp inside with
      | inl old => exact start job old state
      | inr new =>
          rw [List.mem_singleton.mp new]
          exact ⟨.reply, is.jtype, madeBy_of_consensus is⟩
    exact outgoing_evolves queued
      (evolves_finishPending "4" _ : Evolves every (fun _ => False) _ _) fun _ none => none.elim

theorem sideInv_runJobs (mine : Config me) (theirs : Config peer) (some : me.systemCapacity ≠ 0)
    (some' : peer.systemCapacity ≠ 0) (inv : SideInv me peer db) (done : runJobs env db = .ok db') :
    SideInv me peer db' := by
  obtain ⟨u, t, b, x, y, stages⟩ := Repetition.stages_of done
  obtain ⟨settled, requests, replies⟩ := stages.finished
  have rest : (splitJobs env x >>= manageConns) = .ok db' :=
    bind_ok.mpr ⟨y, stages.split, stages.managed⟩
  obtain ⟨last, -, own⟩ := finishPass_ok (w := every) rfl stages.replied rest
  have whole := runJobs_ok done
  constructor
  · exact whole.1 inv.keys
  · have answered : b.selfinfo = (startKnown t).selfinfo := by
      rcases answerRequests_ok stages.answered with ⟨-, rfl⟩ | ⟨_, _, _, v, v', -, -, written, -,
        inserted, rfl⟩
      · rfl
      · exact (insertJob_ok inserted).2.1.selfinfo.trans (upsertSysinfo_frame written).selfinfo
    rw [own, answered, (evolves_promote stages).2.selfinfo]
    exact inv.selfinfo
  · obtain ⟨before, ready, managed⟩ := SenderSide.runJobs_managed.mp done
    rw [(manageConns_frame managed).sysinfo]
    exact (SenderSide.beforeConns_ok ready).2.addresses inv.addresses
  · exact (learns_pass mine theirs some some' inv stages).1.entries inv.entries
  · obtain ⟨top, member, state, self, name⟩ := inv.root
    have stuck (s : JState) : ¬ Promote ⟨true, true⟩ top.jstate s := by
      rw [state]
      exact fun step => by cases step
    exact ⟨top, whole.mem_of_stuck member stuck, state, self, name⟩
  · refine outgoing_evolves (outgoing_answered mine theirs inv stages) last fun job row state => ?_
    cases row.jstate.symm.trans state
  · exact fun job member incoming => absurd incoming (settled job member)
  · intro job member state kind type
    cases kind with
    | request => exact List.filter_eq_nil_iff.mp requests job member (by simp [state, type, Kind.digit])
    | reply => exact List.filter_eq_nil_iff.mp replies job member (by simp [state, type, Kind.digit])

theorem Queued.evolves {w : Scope} {made : Job → Prop} (queued : Queued kind db)
    (evolves : Evolves w made db db') : Queued kind db' := by
  obtain ⟨job, member, state, type⟩ := queued
  exact ⟨job, evolves.mem_of_stuck member (state ▸ fixed_s5 _), state, type⟩

theorem identified (mine : Config me) (inv : SideInv me peer db) (stored : Stored kind db)
    (stages : Repetition.Stages env db u t b x y db') :
    ∃ job ∈ (startKnown t).jobScheduler, job.jstate = .N4 ∧ job.jtype = typeField kind.digit := by
  obtain ⟨job, member, incoming, type⟩ := stored
  obtain ⟨state, arrived⟩ := inv.stored job member incoming
  obtain ⟨top, inside, -, self, name⟩ := inv.root
  have own : messageDestination job.jobdata ∈ rootDestinations db := by
    rw [arrived.destination_eq mine.name]
    exact List.mem_map.mpr ⟨top, List.mem_filter.mpr ⟨inside, by simpa using self⟩, name⟩
  have known := Routing.receive_own member state (arrived.made type).carries.hash own
  exact ⟨_, Routing.identified_leaves stages rfl known, rfl, type⟩

theorem answers (mine : Config me) (inv : SideInv me peer db) (stored : Stored .request db)
    (done : runJobs env db = .ok db') : Queued .reply db' := by
  obtain ⟨u, t, b, x, y, stages⟩ := Repetition.stages_of done
  obtain ⟨job, member, state, type⟩ := identified mine inv stored stages
  have waits : job ∈ pending "4" (startKnown t) := Requests.mem_pending.mpr ⟨member, state, type⟩
  rcases answerRequests_ok stages.answered with ⟨none, -⟩ | ⟨request, r, reply, v, v', -, -,
    written, made, inserted, rfl⟩
  · rw [none] at waits
    cases waits
  · obtain ⟨-, queued, kind, -, -⟩ := consensusJob_row made
    have appended : reply ∈ v'.jobScheduler := by
      rw [(insertJob_ok inserted).1]
      exact List.mem_append_right _ (List.mem_singleton.mpr rfl)
    have kept : reply ∈ (finishPending "4" v').jobScheduler :=
      Routing.update_leaves appended (by simp [queued])
    have rest : (splitJobs env x >>= manageConns) = .ok db' :=
      bind_ok.mpr ⟨y, stages.split, stages.managed⟩
    obtain ⟨last, -, -⟩ := finishPass_ok (w := every) rfl stages.replied rest
    exact ⟨reply, last.mem_of_stuck kept (queued ▸ fixed_s5 _), queued, kind⟩

theorem takes (mine : Config me) (theirs : Config peer) (some : me.systemCapacity ≠ 0)
    (some' : peer.systemCapacity ≠ 0) (inv : SideInv me peer db) (stored : Stored .reply db)
    (done : runJobs env db = .ok db') : ¬ Waits db' := by
  obtain ⟨u, t, b, x, y, stages⟩ := Repetition.stages_of done
  obtain ⟨job, member, state, type⟩ := identified mine inv stored stages
  have other : job.jtype ≠ typeField "4" := by
    rw [type]
    decide
  have answered := Routing.answerRequests_leaves other member stages.answered
  have settled := (learns_pass mine theirs some some' inv stages).2
    ⟨job, Requests.mem_pending.mpr ⟨answered, state, type⟩⟩
  rintro ⟨-, -, -, si, inside, -, zero⟩
  exact settled si inside zero

theorem sending_leaves {job : Job} (stages : Repetition.Stages env db u t b x y db')
    (member : job ∈ db.jobScheduler) (state : job.jstate = .S) :
    job ∈ (completeSingle u).jobScheduler := by
  have accepted : job ∈ (acceptHash db).jobScheduler :=
    Routing.update_leaves member (by simp [state])
  have checked : job ∈ (checkHash db).jobScheduler := Routing.update_leaves accepted (by simp [state])
  have arrived : job ∈ (arrive (checkHash db)).jobScheduler :=
    Routing.update_leaves checked (by simp [state])
  have routed : job ∈ (route (checkHash db)).jobScheduler :=
    Routing.update_leaves arrived (by simp [state])
  have received : job ∈ (receive db).jobScheduler := Routing.update_leaves routed (by simp [state])
  have completed : job ∈ u.jobScheduler := by
    rcases completeSplit_ok stages.completed with ⟨-, rfl⟩ | ⟨parents, -, rfl⟩
    · exact received
    · exact Routing.update_leaves received (by simp [state])
  exact Routing.update_leaves completed (by simp [state])

theorem sysinfo_requested (stages : Repetition.Stages env db u t b x y db') :
    (completeSingle u).sysinfo = db.sysinfo := by
  have received : OnlyJobs db (receive db) :=
    (receive_ok db : Evolves every (fun _ => False) _ _ ∧ _).2
  have completed : OnlyJobs (receive db) u :=
    (evolves_completeSplit rfl stages.completed : Evolves every (fun _ => False) _ _ ∧ _).2
  calc (completeSingle u).sysinfo = u.sysinfo := rfl
    _ = (receive db).sysinfo := completed.sysinfo
    _ = db.sysinfo := received.sysinfo

theorem requested {js : Job} {si : SysInfo} (done : requestConsensus env db = .ok db')
    (member : js ∈ db.jobScheduler) (state : js.jstate = .S) (row : si ∈ db.sysinfo)
    (name : js.jdestination = si.systemName) (port : si.dataport = some 0) :
    Queued .request db' := by
  have chosen : (si, js) ∈ connInfoSending db := by
    apply List.mem_flatMap.mpr
    refine ⟨si, row, List.mem_map.mpr ⟨js, List.mem_filter.mpr ⟨member, ?_⟩, rfl⟩⟩
    simp [state, name, port]
  obtain ⟨i, position⟩ := List.mem_iff_getElem?.mp chosen
  obtain ⟨rows, built, inserted⟩ := bind_ok.mp done
  obtain ⟨job, listed, made⟩ := forall₂_mem_left (mapM_ok.mp built)
    (List.mk_mem_zipIdx_iff_getElem?.mpr position)
  obtain ⟨-, queued, type, -, -⟩ := consensusJob_row made
  refine ⟨job, ?_, queued, type⟩
  rw [(insertJobs_ok inserted).1]
  exact List.mem_append_right _ listed

theorem promotes_to_s1 {w : Scope} {s : JState} (steps : Promotes w s .S1) :
    s = .S1 ∨ s = .S ∨ Incoming s := by
  rcases Relation.ReflTransGen.cases_tail steps with same | ⟨before, first, last⟩
  · exact .inl same.symm
  · cases last with
    | forward => exact .inr (.inr (Promotes.incoming first (.inr (.inl rfl))))
    | start => exact .inr (.inl (Promotes.of_s first))

theorem not_forwarded (mine : Config me) (inv : SideInv me peer db) (done : runJobs env db = .ok db')
    {js new : Job} (member : js ∈ db.jobScheduler) (incoming : Incoming js.jstate)
    (there : new ∈ db'.jobScheduler) (same : new.jobid = js.jobid) : new.jstate ≠ .S1 := by
  obtain ⟨arrived, message⟩ := inv.stored js member incoming
  obtain ⟨top, first, -, self, called⟩ := inv.root
  have own : messageDestination js.jobdata ∈ rootDestinations db := by
    rw [message.destination_eq mine.name]
    exact List.mem_map.mpr ⟨top, List.mem_filter.mpr ⟨first, by simpa using self⟩, called⟩
  obtain ⟨job, inside, id, routed⟩ := (Routing.passes_route done).routed js member arrived
  have keys := (runJobs_ok done).1 inv.keys
  obtain rfl : new = job :=
    List.inj_on_of_nodup_map keys.jobids there inside (same.trans id.symm)
  intro state
  by_cases accepted : Routing.Accepted js.jobdata
  · rcases (routed.own accepted own).2 with ⟨-, completed⟩ | ⟨-, stands⟩
    · cases state.symm.trans completed
    · cases state.symm.trans stands
  · cases state.symm.trans (routed.rejected.mpr accepted)

/-- If a job waits after a pass, there is a request in S-5 or one waited before. -/
theorem asks (mine : Config me) (theirs : Config peer) (some : me.systemCapacity ≠ 0)
    (some' : peer.systemCapacity ≠ 0) (inv : SideInv me peer db) (done : runJobs env db = .ok db')
    (waits : Waits db') : Queued .request db' ∨ Waits db := by
  obtain ⟨job, member, state, si, row, name, zero⟩ := waits
  obtain ⟨u, t, b, x, y, stages⟩ := Repetition.stages_of done
  have before := (learns_pass mine theirs some some' inv stages).1.zero row zero
  have whole := runJobs_ok done
  have keys := whole.1 inv.keys
  obtain ⟨-, change, fresh, kept, split, each⟩ := whole
  have listed := member
  rw [split] at listed
  rcases List.mem_append.mp listed with old | new
  · obtain ⟨js, inside, rfl⟩ := List.mem_map.mp old
    have settled (s : JState) (same : js.jstate = s) (other : ¬ Incoming s) :
        (change js).jdestination = js.jdestination :=
      (kept js).jdestination.resolve_right fun h => other (same ▸ h.1)
    rcases promotes_to_s1 (state ▸ (kept js).jstate) with same | sending | incoming
    · have destination := settled .S1 same (by decide)
      exact .inr ⟨js, inside, same, si, before, name.trans destination, zero⟩
    · have destination := settled .S sending (by decide)
      have port : si.dataport = .some 0 := by
        rcases (inv.entries si before).agreed with ⟨-, port⟩ | ⟨capacity, same, other⟩
        · exact port
        · exact absurd (Option.some.inj (same.symm.trans zero)) other
      have present : si ∈ (completeSingle u).sysinfo := sysinfo_requested stages ▸ before
      have queued := requested stages.requested (sending_leaves stages inside sending) sending
        present (destination.symm.trans name.symm) port
      have rest : (answerRequests env (startKnown t) >>= fun u =>
          takeReplies u >>= fun u => splitJobs env u >>= manageConns) = .ok db' :=
        bind_ok.mpr ⟨b, stages.answered, bind_ok.mpr ⟨x, stages.replied,
          bind_ok.mpr ⟨y, stages.split, stages.managed⟩⟩⟩
      have started : Queued .request (startKnown t) :=
        queued.evolves (evolves_startKnown t : Evolves every (fun _ => False) _ _)
      exact .inl (started.evolves (evolves_afterPromote (w := every) rfl rest))
    · exact absurd state (not_forwarded mine inv done inside incoming member (kept js).jobid)
  · rcases each job new with ready | ready
    · cases ready.symm.trans state
    · cases ready.symm.trans state

end Pass

end Awaiting

end FileSharing
