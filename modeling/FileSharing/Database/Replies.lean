import FileSharing.Database.Requests

/-! The type 5 replies that one pass takes in. -/

namespace FileSharing

open Library RunJobs

namespace Replies

/-- A reply that a peer built, with what it carries. -/
structure WellFormed (own : Text) (job : Job) (r : Request) : Prop where
  carries : Carries job.jobdata (ascii "5") r.sourceName own r.rcapacity r.rport r.sourceIp
  name : IsName r.sourceName
  capacity : IsInt4 r.rcapacity
  port : 1 ≤ r.rport ∧ r.rport ≤ 65535
  address : 0 ≤ r.sourceIp ∧ r.sourceIp < 2 ^ 32

def Matches (r : Request) (si : SysInfo) : Prop :=
  r.sourceName = si.systemName ∧ r.sourceIp = si.ipaddress

instance (r : Request) (si : SysInfo) : Decidable (Matches r si) :=
  inferInstanceAs (Decidable (_ ∧ _))

/-- A waiting row takes what a reply of its own system carries; another row is unchanged. -/
structure RowTakes (rs : List Request) (si si' : SysInfo) : Prop where
  answered : waiting si = true → (∃ r ∈ rs, Matches r si) → ∃ r ∈ rs, Matches r si ∧
    si' = { si with systemCapacity := some r.rcapacity, dataport := some r.rport }
  other : (waiting si = false ∨ ∀ r ∈ rs, ¬ Matches r si) → si' = si

structure Taken (rs : List Request) (db db' : Db) : Prop where
  sysinfo : List.Forall₂ (RowTakes rs) db.sysinfo db'.sysinfo
  completed : db'.jobScheduler = db.jobScheduler.map fun job =>
    if job.jstate = .N4 && job.jtype = typeField "5" then { job with jstate := .C } else job

def known (db : Db) (rs : List Request) : List Request :=
  rs.filter fun r => db.sysinfo.any fun si => Matches r si

/-- No known system replied, or no row waits, or one known system replied, once, and only
its row waits. -/
def OneWaiting (db : Db) (rs : List Request) : Prop :=
  known db rs = [] ∨ (∀ si ∈ db.sysinfo, waiting si = false) ∨
    ∃ r, known db rs = [r] ∧ ∀ si ∈ db.sysinfo, waiting si = true → Matches r si

section Cte

variable {db : Db} {rs : List Request} {own : Text}

theorem int4_port {port : Int} (range : 1 ≤ port ∧ port ≤ 65535) : IsInt4 port := by
  unfold IsInt4 int4Min int4Max
  omega

theorem addressField_eq {job : Job} {r : Request} (well : WellFormed own job r) :
    int8in (addressField job.jobdata) = .ok r.sourceIp := by
  obtain ⟨low, high⟩ := well.address
  rw [well.carries.address]
  refine int8in_lpad (length_intText_le (le_trans (by decide) low) (lt_trans high (by decide))) ?_ ?_
  · exact le_trans (by decide) low
  · omega

theorem cteRow_eq {job : Job} {r : Request} (well : WellFormed own job r) :
    cteRow db job = .ok ((db.sysinfo.filter fun si => Matches r si).map fun _ =>
      (r.rcapacity, r.rport)) := by
  have source : messageSource job.jobdata = r.sourceName := by
    rw [well.carries.source, lpad_of_length well.name.length]
  have test : (fun si : SysInfo =>
      (r.sourceName = si.systemName && r.sourceIp = si.ipaddress : Bool)) =
      fun si => decide (Matches r si) := by
    funext si
    exact (Bool.decide_and _ _).symm
  simp only [cteRow, addressField_eq well, source, well.carries.capacityField well.capacity,
    well.carries.portField (int4_port well.port), bind, Except.bind, pure, Except.pure, test]
  rw [mapM_ok, List.forall₂_map_right_iff]
  exact List.forall₂_same.mpr fun _ _ => rfl

theorem matching_rows (unique : (db.sysinfo.map SysInfo.ipaddress).Nodup) (r : Request) {α : Type}
    (v : α) : ((db.sysinfo.filter fun si => Matches r si).map fun _ => v) =
      if db.sysinfo.any fun si => Matches r si then [v] else [] := by
  generalize hrows : (db.sysinfo.filter fun si => Matches r si) = rows
  have few : rows.length ≤ 1 := by
    have addresses : rows.map SysInfo.ipaddress = List.replicate rows.length r.sourceIp := by
      refine List.eq_replicate_iff.mpr ⟨List.length_map _, fun address member => ?_⟩
      obtain ⟨si, inside, rfl⟩ := List.mem_map.mp member
      rw [← hrows] at inside
      have same : Matches r si := by simpa using List.of_mem_filter inside
      exact same.2.symm
    have sub : List.Sublist (rows.map SysInfo.ipaddress) (db.sysinfo.map SysInfo.ipaddress) := by
      rw [← hrows]
      exact List.filter_sublist.map SysInfo.ipaddress
    have nodup := unique.sublist sub
    rw [addresses] at nodup
    exact List.nodup_replicate.mp nodup
  rw [List.map_const']
  split
  · next some =>
      obtain ⟨si, member, same⟩ := List.any_eq_true.mp some
      have inside : si ∈ rows := hrows ▸ List.mem_filter.mpr ⟨member, same⟩
      have positive := List.length_pos_of_mem inside
      rw [show rows.length = 1 by omega]
      rfl
  · next none =>
      have empty : rows = [] := by
        rw [← hrows]
        apply List.filter_eq_nil_iff.mpr
        intro si member same
        exact none (List.any_eq_true.mpr ⟨si, member, same⟩)
      rw [empty]
      rfl

theorem cteSysinfo_eq (unique : (db.sysinfo.map SysInfo.ipaddress).Nodup)
    (wellFormed : List.Forall₂ (WellFormed own) (pending "5" db) rs) :
    cteSysinfo db = .ok ((known db rs).map fun r => (r.rcapacity, r.rport)) := by
  have rows : (pending "5" db).mapM (cteRow db) = .ok (rs.map fun r =>
      if db.sysinfo.any fun si => Matches r si then [(r.rcapacity, r.rport)] else []) := by
    rw [mapM_ok, List.forall₂_map_right_iff]
    refine wellFormed.imp fun job r well => ?_
    rw [cteRow_eq well, matching_rows unique]
  simp only [cteSysinfo, rows, bind, Except.bind, pure, Except.pure, known]
  congr 1
  clear rows wellFormed
  induction rs with
  | nil => rfl
  | cons r rest ih =>
      rw [List.map_cons, List.flatten_cons, ih, List.filter_cons]
      split
      · rfl
      · rfl

end Cte

section Step

variable {db db' : Db} {rs : List Request} {own : Text}

theorem finishPending_taken {u : Db} (frame : OnlySysinfo db u)
    (rows : List.Forall₂ (RowTakes rs) db.sysinfo u.sysinfo) :
    Taken rs db (finishPending "5" u) := by
  refine ⟨rows, ?_⟩
  rw [finishPending, Db.updateJobs, frame.jobScheduler]

theorem mem_known {r : Request} :
    r ∈ known db rs ↔ r ∈ rs ∧ ∃ si ∈ db.sysinfo, Matches r si := by
  simp [known]

theorem rows_same (nothing : ∀ si ∈ db.sysinfo, waiting si = false ∨ ∀ r ∈ rs, ¬ Matches r si) :
    List.Forall₂ (RowTakes rs) db.sysinfo db.sysinfo := by
  refine List.forall₂_same.mpr fun si member => ⟨fun waits answered => ?_, fun _ => rfl⟩
  obtain ⟨r, inside, same⟩ := answered
  rcases nothing si member with settled | unknown
  · rw [settled] at waits
    cases waits
  · exact absurd same (unknown r inside)

def taking (r : Request) (si : SysInfo) : SysInfo :=
  { si with systemCapacity := some r.rcapacity, dataport := some r.rport }

theorem applyReplies_cases (unique : (db.sysinfo.map SysInfo.ipaddress).Nodup)
    (wellFormed : List.Forall₂ (WellFormed own) (pending "5" db) rs) :
    ((known db rs = [] ∨ ∀ si ∈ db.sysinfo, waiting si = false) ∧ applyReplies db = .ok db) ∨
    (∃ r, known db rs = [r] ∧ applyReplies db = .ok (writeSysinfo db waiting (taking r))) ∨
    ((∃ si ∈ db.sysinfo, waiting si = true) ∧ 2 ≤ (known db rs).length ∧
      applyReplies db = .error .cardinality) := by
  simp only [applyReplies, cteSysinfo_eq unique wellFormed, bind, Except.bind]
  split
  · next nothing =>
      simp only [Bool.or_eq_true, List.isEmpty_iff, List.map_eq_nil_iff, Bool.not_eq_true'] at nothing
      refine .inl ⟨nothing.imp_right fun settled si member => ?_, rfl⟩
      simpa using List.any_eq_false.mp settled si member
  · next some =>
      simp only [Bool.or_eq_true, List.isEmpty_iff, List.map_eq_nil_iff, Bool.not_eq_true', not_or,
        Bool.not_eq_false, List.any_eq_true] at some
      match shape : known db rs with
      | [] => exact absurd shape some.1
      | [r] => exact .inr (.inl ⟨r, rfl, rfl⟩)
      | r :: r' :: rest => exact .inr (.inr ⟨some.2, by simp, by simp [scalar]⟩)

/-- The reply step meets its purpose exactly if at most one known system replied and only
its row waits. -/
theorem replies_taken_iff (unique : (db.sysinfo.map SysInfo.ipaddress).Nodup)
    (wellFormed : List.Forall₂ (WellFormed own) (pending "5" db) rs) :
    (∃ db', takeReplies db = .ok db' ∧ Taken rs db db') ↔ OneWaiting db rs := by
  rcases applyReplies_cases unique wellFormed with ⟨nothing, applied⟩ | ⟨r, one, applied⟩ |
    ⟨⟨si, member, waits⟩, many, applied⟩
  · refine iff_of_true ⟨finishPending "5" db, ?_, ?_⟩ (nothing.imp_right .inl)
    · simp only [takeReplies, applied, bind, Except.bind, pure, Except.pure]
    · refine finishPending_taken (.refl db) (rows_same fun si member => ?_)
      rcases nothing with none | settled
      · refine .inr fun r inside same => ?_
        have present : r ∈ known db rs := mem_known.mpr ⟨inside, si, member, same⟩
        simp [none] at present
      · exact .inl (settled si member)
  · obtain ⟨frame, table⟩ := writeSysinfo_ok db waiting (taking r)
    have mine (r' : Request) (inside : r' ∈ rs) (si : SysInfo) (member : si ∈ db.sysinfo)
        (same : Matches r' si) : r' = r := by
      have present : r' ∈ known db rs := mem_known.mpr ⟨inside, si, member, same⟩
      rwa [one, List.mem_singleton] at present
    have inside : r ∈ rs := (mem_known.mp (one ▸ List.mem_singleton.mpr rfl)).1
    constructor
    · rintro ⟨db', done, taken⟩
      refine .inr (.inr ⟨r, one, fun si member waits => ?_⟩)
      by_contra other
      simp only [takeReplies, applied, bind, Except.bind, pure_ok] at done
      have rows := taken.sysinfo
      rw [← done, finishPending, (onlyJobs_update _ _ _).sysinfo, table,
        List.forall₂_map_right_iff] at rows
      have row := List.forall₂_same.mp rows si member
      have unchanged := row.other (.inr fun r' inside' same =>
        other (mine r' inside' si member same ▸ same))
      rw [if_pos waits] at unchanged
      have port : some r.rport = si.dataport := congrArg SysInfo.dataport unchanged
      simp only [waiting, Bool.and_eq_true, decide_eq_true_eq] at waits
      obtain ⟨job, -, well⟩ := forall₂_mem_right wellFormed inside
      have positive := well.port.1
      rw [waits.2, Option.some.injEq] at port
      omega
    · intro condition
      refine ⟨finishPending "5" (writeSysinfo db waiting (taking r)), ?_,
        finishPending_taken frame ?_⟩
      · simp only [takeReplies, applied, bind, Except.bind, pure, Except.pure]
      · rw [table, List.forall₂_map_right_iff]
        refine List.forall₂_same.mpr fun si member => ?_
        have fitting (waits : waiting si = true) : Matches r si := by
          rcases condition with none | settled | ⟨r', one', only⟩
          · rw [one] at none
            cases none
          · rw [settled si member] at waits
            cases waits
          · obtain rfl := List.cons.inj (one.symm.trans one') |>.1
            exact only si member waits
        constructor
        · intro waits _
          exact ⟨r, inside, fitting waits, by rw [if_pos waits, taking]⟩
        · rintro (settled | unknown)
          · simp [settled]
          · rw [if_neg]
            intro waits
            exact unknown r inside (fitting waits)
  · refine iff_of_false ?_ ?_
    · rintro ⟨db', done, -⟩
      simp [takeReplies, applied, bind, Except.bind] at done
    · rintro (none | settled | ⟨r, one, -⟩)
      · simp [none] at many
      · rw [settled si member] at waits
        cases waits
      · simp [one] at many

end Step

def replyJob (i : Nat) (peer : SelfInfo) : Job :=
  ⟨Uuid.ofNat i, Requests.peerData peer (ascii "5"), .N4, typeField "5", ascii "9", Uuid.ofNat 0,
    ascii "0", ascii "5"⟩

def awaiting (peer : SelfInfo) : SysInfo := ⟨peer.systemName, peer.ipaddress, some 0, 7000, some 0⟩

def oneReply (peers : List SelfInfo) : Db :=
  { Db.sampleDb with
    jobScheduler := Db.sampleDb.jobScheduler ++ [replyJob 1 Requests.peerM1]
    sysinfo := peers.map awaiting }

theorem wellFormed_replyJob (i : Nat) {peer : SelfInfo} (name : IsName peer.systemName)
    (capacity : IsInt4 peer.systemCapacity) (port : 1 ≤ peer.dataport ∧ peer.dataport ≤ 65535)
    (address : 0 ≤ peer.ipaddress ∧ peer.ipaddress < 2 ^ 32) :
    WellFormed (ascii "   M3") (replyJob i peer) (Requests.asking peer) :=
  ⟨Requests.peerData_carries (by decide) name.plain, name, capacity, port, address⟩

theorem wellFormed_oneReply {peers : List SelfInfo}
    (one : pending "5" (oneReply peers) = [replyJob 1 Requests.peerM1]) :
    List.Forall₂ (WellFormed (ascii "   M3")) (pending "5" (oneReply peers))
      [Requests.asking Requests.peerM1] := by
  rw [one]
  exact .cons (wellFormed_replyJob 1 ⟨rfl, by decide, by decide⟩ (by decide) (by decide)
    (by decide)) .nil

theorem reply_taken_one_waiting :
    ∃ db', takeReplies (oneReply [Requests.peerM1]) = .ok db' ∧
      Taken [Requests.asking Requests.peerM1] (oneReply [Requests.peerM1]) db' := by
  have alone : OneWaiting (oneReply [Requests.peerM1]) [Requests.asking Requests.peerM1] := by
    refine .inr (.inr ⟨Requests.asking Requests.peerM1, by decide, ?_⟩)
    unfold Matches
    decide
  exact (replies_taken_iff (by decide) (wellFormed_oneReply (by decide +kernel))).mpr alone

def twoWaiting : Db := oneReply [Requests.peerM1, Requests.peerM2]

/-- M3 waits for M1 and M2: the reply of M1 also fills the row of M2. -/
theorem reply_fills_other_row :
    List.Forall₂ (WellFormed (ascii "   M3")) (pending "5" twoWaiting)
        [Requests.asking Requests.peerM1] ∧
      (takeReplies twoWaiting).map Db.sysinfo =
        .ok [⟨ascii "   M1", 16843009, some 6101, 7000, some 65536⟩,
          ⟨ascii "   M2", 33686018, some 6101, 7000, some 65536⟩] ∧
      ¬ ∃ db', takeReplies twoWaiting = .ok db' ∧
        Taken [Requests.asking Requests.peerM1] twoWaiting db' := by
  have after : (takeReplies twoWaiting).map Db.sysinfo =
      .ok [⟨ascii "   M1", 16843009, some 6101, 7000, some 65536⟩,
        ⟨ascii "   M2", 33686018, some 6101, 7000, some 65536⟩] := by decide +kernel
  refine ⟨wellFormed_oneReply (by decide +kernel), after, ?_⟩
  rintro ⟨db', done, taken⟩
  rw [done] at after
  have rows := taken.sysinfo
  rw [Except.ok.inj after] at rows
  obtain ⟨-, tail⟩ := List.forall₂_cons.mp rows
  obtain ⟨second, -⟩ := List.forall₂_cons.mp tail
  have kept := second.other (.inr (by decide))
  exact absurd kept (by decide)

end Replies

end FileSharing
