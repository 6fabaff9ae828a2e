import FileSharing.Database.Consensus
import FileSharing.Sender.Conservation

/-! What the programs other than `processor_s` do to the tables about connections. -/

namespace FileSharing

open Library RunJobs

namespace SenderSide

structure Known (db db' : Db) : Prop where
  kept : ∀ si ∈ db.sysinfo, ∃ si' ∈ db'.sysinfo,
    si'.systemName = si.systemName ∧ si'.ipaddress = si.ipaddress
  addresses : (db.sysinfo.map SysInfo.ipaddress).Nodup → (db'.sysinfo.map SysInfo.ipaddress).Nodup

section Known

variable {a b c db db' : Db}

theorem Known.of_eq (same : db'.sysinfo = db.sysinfo) : Known db db' :=
  ⟨fun si member => ⟨si, same ▸ member, rfl, rfl⟩, fun nodup => same ▸ nodup⟩

theorem Known.trans (first : Known a b) (second : Known b c) : Known a c := by
  refine ⟨fun si member => ?_, second.addresses ∘ first.addresses⟩
  obtain ⟨si', inside, name, address⟩ := first.kept si member
  obtain ⟨si'', last, name', address'⟩ := second.kept si' inside
  exact ⟨si'', last, name'.trans name, address'.trans address⟩

theorem known_map {change : SysInfo → SysInfo} (rows : db'.sysinfo = db.sysinfo.map change)
    (same : ∀ si, (change si).systemName = si.systemName ∧ (change si).ipaddress = si.ipaddress) :
    Known db db' := by
  refine ⟨fun si member => ⟨change si, ?_, same si⟩, fun nodup => ?_⟩
  · rw [rows]
    exact List.mem_map_of_mem member
  · have equal : db'.sysinfo.map SysInfo.ipaddress = db.sysinfo.map SysInfo.ipaddress := by
      rw [rows, List.map_map]
      exact List.map_congr_left fun si _ => (same si).2
    rwa [equal]

theorem known_writeSysinfo (db : Db) (condition : SysInfo → Bool) {change : SysInfo → SysInfo}
    (same : ∀ si, (change si).systemName = si.systemName ∧ (change si).ipaddress = si.ipaddress) :
    Known db (writeSysinfo db condition change) := by
  refine known_map (writeSysinfo_ok db condition change).2 fun si => ?_
  split
  · exact same si
  · exact ⟨rfl, rfl⟩

theorem known_upsertSysinfo {info : List (Request × Option Int)} {row : Request × Option Int}
    (done : upsertSysinfo info db row = .ok db') : Known db db' := by
  rcases upsertSysinfo_ok done with ⟨found, -, -, rfl⟩ | ⟨new, rfl, free, rfl⟩
  · exact known_writeSysinfo db _ fun _ => ⟨rfl, rfl⟩
  · constructor
    · rw [(onlySysinfo_createComms _ _).2]
      exact fun si member => ⟨si, List.mem_append_left _ member, rfl, rfl⟩
    · intro nodup
      rw [(onlySysinfo_createComms _ _).2, List.map_append, List.nodup_append]
      refine ⟨nodup, List.nodup_singleton _, fun address member other single => ?_⟩
      obtain ⟨si, inside, rfl⟩ := List.mem_map.mp member
      rw [List.mem_singleton.mp single]
      exact free si inside

theorem known_answerRequests {env : Env} (done : answerRequests env db = .ok db') :
    Known db db' := by
  rcases answerRequests_ok done with ⟨-, rfl⟩ | ⟨request, r, reply, u, v, -, -, written, -,
    inserted, rfl⟩
  · exact .of_eq rfl
  · exact (known_upsertSysinfo written).trans (.of_eq (insertJob_ok inserted).2.1.sysinfo)

theorem known_takeReplies (done : takeReplies db = .ok db') : Known db db' := by
  obtain ⟨u, applied, rfl⟩ := takeReplies_ok done
  rcases applyReplies_ok applied with rfl | ⟨reply, -, -, rfl⟩
  · exact .of_eq rfl
  · refine Known.trans (known_writeSysinfo db waiting ?_) (.of_eq rfl)
    exact fun _ => ⟨rfl, rfl⟩

end Known

structure SameConns (db db' : Db) : Prop where
  sendingConns : db'.sendingConns = db.sendingConns
  sendersComms : db'.sendersComms = db.sendersComms
  scommidSeq : db'.scommidSeq = db.scommidSeq

section SameConns

variable {a b c db db' : Db}

theorem SameConns.refl (db : Db) : SameConns db db := ⟨rfl, rfl, rfl⟩

theorem SameConns.trans (first : SameConns a b) (second : SameConns b c) : SameConns a c :=
  ⟨second.sendingConns.trans first.sendingConns, second.sendersComms.trans first.sendersComms,
    second.scommidSeq.trans first.scommidSeq⟩

theorem SameConns.jobs (only : OnlyJobs db db') : SameConns db db' :=
  ⟨only.sendingConns, only.sendersComms, only.scommidSeq⟩

theorem SameConns.sysinfo (only : OnlySysinfo db db') : SameConns db db' :=
  ⟨only.sendingConns, only.sendersComms, only.scommidSeq⟩

def beforeConns (env : Env) (db : Db) : Sql Db := do
  let db ← promote env db
  let db ← answerRequests env db
  let db ← takeReplies db
  splitJobs env db

theorem runJobs_managed {env : Env} :
    runJobs env db = .ok db' ↔ ∃ u, beforeConns env db = .ok u ∧ manageConns u = .ok db' := by
  rw [runJobs, beforeConns]
  simp only [bind_ok]
  grind

theorem beforeConns_ok {env : Env} {u : Db} (done : beforeConns env db = .ok u) :
    SameConns db u ∧ Known db u := by
  obtain ⟨a, promoted, rest⟩ := bind_ok.mp done
  obtain ⟨b, answered, rest⟩ := bind_ok.mp rest
  obtain ⟨c, replied, split⟩ := bind_ok.mp rest
  have onlyA := (promote_ok (w := ⟨true, true⟩) rfl promoted).2
  have onlyU := (splitJobs_ok (w := ⟨true, true⟩) rfl split).2
  have same : SameConns a b := by
    rcases answerRequests_ok answered with ⟨-, rfl⟩ | ⟨request, r, reply, x, y, -, -, written, -,
      inserted, rfl⟩
    · exact .jobs (onlyJobs_update _ _ _)
    · exact ((SameConns.sysinfo (upsertSysinfo_frame written)).trans
        (.jobs (insertJob_ok inserted).2.1)).trans (.jobs (onlyJobs_update _ _ _))
  have replies : SameConns b c := by
    obtain ⟨x, applied, rfl⟩ := takeReplies_ok replied
    exact (SameConns.sysinfo (applyReplies_frame applied)).trans (.jobs (onlyJobs_update _ _ _))
  constructor
  · exact ((SameConns.jobs onlyA).trans same).trans (replies.trans (.jobs onlyU))
  · exact ((Known.of_eq onlyA.sysinfo).trans (known_answerRequests answered)).trans
      ((known_takeReplies replied).trans (.of_eq onlyU.sysinfo))

theorem others_conns {op : Operation} (other : others db op = true)
    (noPass : ∀ env, op ≠ .runJobs env) (step : db.perform op = some db') :
    SameConns db db' ∧ db'.sysinfo = db.sysinfo := by
  have attempt {done : Sql Db} (keeps : ∀ u, done = .ok u →
      SameConns db u ∧ u.sysinfo = db.sysinfo) :
      SameConns db (db.attempt done) ∧ (db.attempt done).sysinfo = db.sysinfo := by
    rcases Db.attempt_cases db done with same | ⟨u, ok, same⟩
    · rw [same]
      exact ⟨.refl db, rfl⟩
    · rw [same]
      exact keeps u ok
  cases op with
  | runJobs env => exact absurd rfl (noPass env)
  | importFile file =>
      refine Option.some.inj step ▸ attempt fun u done => ?_
      rw [importFile_ok done]
      exact ⟨⟨rfl, rfl, rfl⟩, rfl⟩
  | sendFile id fileName destination =>
      refine Option.some.inj step ▸ attempt fun u done => ?_
      exact ⟨.jobs (sendFile_ok done).1, (sendFile_ok done).1.sysinfo⟩
  | updateJobPriority id priority => exact Option.some.inj step ▸ ⟨⟨rfl, rfl, rfl⟩, rfl⟩
  | storeData id fd data =>
      refine Option.some.inj step ▸ attempt fun u done => ?_
      exact ⟨.jobs (storeData_ok done).1, (storeData_ok done).1.sysinfo⟩
  | retrieve sc job => cases other
  | updateStatus id status => exact Option.some.inj step ▸ ⟨⟨rfl, rfl, rfl⟩, rfl⟩
  | updateConns ipaddress fd status => cases other
  | updateComms scommid => cases other
  | deleteComms scommid => cases other
  | getcomms rcomid =>
      obtain ⟨row, -, -, rfl⟩ := Db.perform_getcomms step
      exact ⟨⟨rfl, rfl, rfl⟩, rfl⟩
  | insertConns fd ipaddr status =>
      obtain ⟨rows, same⟩ := Db.rInsertConns_frame db fd ipaddr status
      obtain rfl := Option.some.inj step
      rw [same]
      exact ⟨⟨rfl, rfl, rfl⟩, rfl⟩

end SameConns

section Manage

variable {db db' : Db}

theorem registerConns_ok (db : Db) : (registerConns db).sendersComms = db.sendersComms ∧
    (registerConns db).scommidSeq = db.scommidSeq ∧
    ∀ sc ∈ (registerConns db).sendingConns, sc.scstatus = 2 → sc ∈ db.sendingConns := by
  unfold registerConns
  generalize ((db.sysinfo.filter (hasReadyJob db)).map SysInfo.ipaddress).dedup = addresses
  suffices h : ∀ u, u.sendersComms = db.sendersComms ∧ u.scommidSeq = db.scommidSeq ∧
      (∀ sc ∈ u.sendingConns, sc.scstatus = 2 → sc ∈ db.sendingConns) →
      (addresses.foldl registerConn u).sendersComms = db.sendersComms ∧
      (addresses.foldl registerConn u).scommidSeq = db.scommidSeq ∧
      ∀ sc ∈ (addresses.foldl registerConn u).sendingConns, sc.scstatus = 2 →
        sc ∈ db.sendingConns from h db ⟨rfl, rfl, fun _ member _ => member⟩
  induction addresses with
  | nil => exact fun u kept => kept
  | cons address rest ih =>
      intro u kept
      refine ih (registerConn u address) ?_
      unfold registerConn
      split
      · exact kept
      · refine ⟨kept.1, kept.2.1, fun sc member opened => ?_⟩
        rcases List.mem_append.mp member with old | new
        · exact kept.2.2 sc old opened
        · rw [List.mem_singleton.mp new] at opened
          cases opened

theorem insertComm_ok {mtype : MType} {row : Int × Option Int}
    (done : insertComm mtype db row = .ok db') :
    (db'.sendersComms = db.sendersComms ∧ db.scommidSeq ≤ db'.scommidSeq) ∨
    ∃ mdata2, row.2 = some mdata2 ∧
      (∀ sm ∈ db.sendersComms, ¬ (sm.mdata1 = row.1 ∧ sm.mdata2 = mdata2)) ∧
      db'.sendersComms = db.sendersComms ++ [⟨db.scommidSeq, row.1, mdata2, mtype⟩] ∧
      db'.scommidSeq = db.scommidSeq + 1 := by
  unfold insertComm at done
  split at done
  · cases done
  · next mdata2 known =>
      split at done
      · obtain rfl := Except.ok.inj done
        exact .inl ⟨rfl, Nat.le_succ _⟩
      · next absent =>
          obtain rfl := Except.ok.inj done
          refine .inr ⟨mdata2, known, fun sm member same => absent ?_, rfl, rfl⟩
          exact List.any_eq_true.mpr ⟨sm, member, by simpa using same⟩

theorem mem_closeRows {row : Int × Option Int} (member : row ∈ closeRows db) :
    ∃ sc ∈ db.sendingConns, sc.scstatus = 2 ∧ row = (sc.sipaddr, some sc.sfd) ∧
      ∃ si ∈ db.sysinfo, sc.sipaddr = si.ipaddress ∧
        ∀ js ∈ db.jobScheduler, js.jdestination = si.systemName → js.jstate = .C := by
  obtain ⟨sc, chosen, rfl⟩ := List.mem_map.mp member
  obtain ⟨inside, test⟩ := List.mem_filter.mp chosen
  simp only [Bool.and_eq_true, decide_eq_true_eq, List.any_eq_true, Bool.not_eq_true',
    List.any_eq_false] at test
  obtain ⟨opened, si, present, same, idle⟩ := test
  refine ⟨sc, inside, opened, rfl, si, present, same, fun js listed destination => ?_⟩
  by_contra other
  exact idle js listed ⟨destination.symm, other⟩

end Manage

end SenderSide

end FileSharing
