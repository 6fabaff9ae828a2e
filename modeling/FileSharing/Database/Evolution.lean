import FileSharing.Database.Statements

/-! What `run_jobs` does to the rows of `job_scheduler`: it promotes the rows that are
there and appends rows in S-4 and S-5. -/

namespace FileSharing

open Library

/-- Which statements are in view: the one that completes S-2W, and those that split. -/
structure Scope where
  completes : Bool
  splits : Bool

def quiet : Scope := ⟨false, false⟩

inductive Promote (w : Scope) : JState → JState → Prop
  | accept : Promote w .N1 .N2
  | reject : Promote w .N1 .D
  | arrive : Promote w .N2 .N3
  | forward : Promote w .N2 .S1
  | identify : Promote w .N3 .N4
  | answer : Promote w .N4 .C
  | start : Promote w .S .S1
  | completeSingle : Promote w .S3W .C
  | completeSplit (h : w.completes = true) : Promote w .S2W .C
  | split (h : w.splits = true) : Promote w .S1 .S2
  | single (h : w.splits = true) : Promote w .S1 .S3
  | awaitSplit (h : w.splits = true) : Promote w .S2 .S2W
  | awaitSingle (h : w.splits = true) : Promote w .S3 .S3W

abbrev Promotes (w : Scope) : JState → JState → Prop := Relation.ReflTransGen (Promote w)

variable {w : Scope}

/-- The states of a job that is not yet routed or identified. -/
def Incoming (s : JState) : Prop := s = .N1 ∨ s = .N2 ∨ s = .N3

instance (s : JState) : Decidable (Incoming s) := inferInstanceAs (Decidable (_ ∨ _ ∨ _))

theorem Promote.incoming {a b : JState} (step : Promote w a b) (incoming : Incoming b) :
    Incoming a := by
  unfold Incoming at *
  cases step <;> simp_all

theorem Promotes.incoming {a b : JState} (steps : Promotes w a b) (incoming : Incoming b) :
    Incoming a := by
  induction steps with
  | refl => exact incoming
  | tail _ step ih => exact ih (step.incoming incoming)

/-- The states that no statement of `run_jobs` changes. -/
def Fixed (s : JState) : Prop := ∀ w t, ¬ Promote w s t

theorem Promotes.of_s5 {a : JState} (steps : Promotes w a .S5) : a = .S5 := by
  rcases Relation.ReflTransGen.cases_tail steps with same | ⟨c, -, last⟩
  · exact same.symm
  · cases last

theorem Promotes.of_s {a : JState} (steps : Promotes w a .S) : a = .S := by
  rcases Relation.ReflTransGen.cases_tail steps with same | ⟨c, -, last⟩
  · exact same.symm
  · cases last

theorem Promotes.of_s4w {a : JState} (steps : Promotes w a .S4W) : a = .S4W := by
  rcases Relation.ReflTransGen.cases_tail steps with same | ⟨c, -, last⟩
  · exact same.symm
  · cases last

theorem Promotes.of_s4 {a : JState} (steps : Promotes w a .S4) : a = .S4 := by
  rcases Relation.ReflTransGen.cases_tail steps with same | ⟨c, -, last⟩
  · exact same.symm
  · cases last

theorem fixed_s4 : Fixed .S4 := fun _ _ step => nomatch step

theorem fixed_s5 : Fixed .S5 := fun _ _ step => nomatch step

theorem fixed_c : Fixed .C := fun _ _ step => nomatch step

theorem fixed_d : Fixed .D := fun _ _ step => nomatch step

theorem fixed_s4w : Fixed .S4W := fun _ _ step => nomatch step

theorem Promotes.stays {a b : JState} (steps : Promotes w a b) (stuck : ∀ t, ¬ Promote w a t) :
    b = a := by
  rcases Relation.ReflTransGen.cases_head steps with same | ⟨c, first, -⟩
  · exact same.symm
  · exact absurd first (stuck c)

structure JobKept (w : Scope) (old new : Job) : Prop where
  jobid : new.jobid = old.jobid
  jobdata : new.jobdata = old.jobdata
  jparentJobid : new.jparentJobid = old.jparentJobid
  jsource : new.jsource = old.jsource
  jpriority : new.jpriority = old.jpriority
  jstate : Promotes w old.jstate new.jstate
  jdestination : new.jdestination = old.jdestination ∨
    Incoming old.jstate ∧ new.jdestination = messageDestination old.jobdata
  jtype : new.jtype = old.jtype ∨ Incoming old.jstate ∧ new.jtype = messageType old.jobdata
  identified : Incoming old.jstate → new.jstate = .N4 → new.jtype = messageType old.jobdata

theorem Incoming.ne_n4 {s : JState} (incoming : Incoming s) : s ≠ .N4 := by
  rintro rfl
  rcases incoming with h | h | h <;> cases h

theorem Promotes.of_n4 {a : JState} (steps : Promotes w a .N4) : a = .N4 ∨ Incoming a := by
  rcases Relation.ReflTransGen.cases_tail steps with same | ⟨c, first, last⟩
  · exact .inl same.symm
  · cases last
    exact .inr (Promotes.incoming first (.inr (.inr rfl)))

theorem JobKept.refl (job : Job) : JobKept w job job :=
  ⟨rfl, rfl, rfl, rfl, rfl, Relation.ReflTransGen.refl, .inl rfl, .inl rfl,
    fun incoming state => absurd state incoming.ne_n4⟩

theorem JobKept.trans {a b c : Job} (first : JobKept w a b) (second : JobKept w b c) :
    JobKept w a c := by
  refine ⟨second.jobid.trans first.jobid, second.jobdata.trans first.jobdata,
    second.jparentJobid.trans first.jparentJobid, second.jsource.trans first.jsource,
    second.jpriority.trans first.jpriority, first.jstate.trans second.jstate, ?_, ?_, ?_⟩
  · rcases second.jdestination with same | ⟨incoming, changed⟩
    · rw [same]
      exact first.jdestination
    · exact .inr ⟨first.jstate.incoming incoming, by rw [changed, first.jobdata]⟩
  · rcases second.jtype with same | ⟨incoming, changed⟩
    · rw [same]
      exact first.jtype
    · exact .inr ⟨first.jstate.incoming incoming, by rw [changed, first.jobdata]⟩
  · intro incoming state
    rcases Promotes.of_n4 (state ▸ second.jstate) with middle | middle
    · have same : c.jtype = b.jtype :=
        second.jtype.resolve_right fun h => h.1.ne_n4 middle
      rw [same, first.identified incoming middle]
    · rw [second.identified middle state, first.jobdata]

theorem JobKept.stays {old new : Job} (kept : JobKept w old new)
    (stuck : ∀ t, ¬ Promote w old.jstate t) : new = old := by
  have state := kept.jstate.stays stuck
  have settled : ¬ Incoming old.jstate := by
    rintro (h | h | h)
    · exact stuck _ (h ▸ Promote.accept)
    · exact stuck _ (h ▸ Promote.arrive)
    · exact stuck _ (h ▸ Promote.identify)
  have destination : new.jdestination = old.jdestination :=
    kept.jdestination.resolve_right fun h => settled h.1
  have type : new.jtype = old.jtype := kept.jtype.resolve_right fun h => settled h.1
  exact Job.ext kept.jobid kept.jobdata state type kept.jsource kept.jparentJobid destination
    kept.jpriority

theorem JobKept.fixed {old new : Job} (kept : JobKept w old new) (fixed : Fixed old.jstate) :
    new = old := kept.stays (fixed w)

structure OnlyJobs (db db' : Db) : Prop where
  sysinfo : db'.sysinfo = db.sysinfo
  selfinfo : db'.selfinfo = db.selfinfo
  files : db'.files = db.files
  receiversComms : db'.receiversComms = db.receiversComms
  receivingConns : db'.receivingConns = db.receivingConns
  sendingConns : db'.sendingConns = db.sendingConns
  sendersComms : db'.sendersComms = db.sendersComms
  rcomidSeq : db'.rcomidSeq = db.rcomidSeq
  scommidSeq : db'.scommidSeq = db.scommidSeq

theorem OnlyJobs.refl (db : Db) : OnlyJobs db db := ⟨rfl, rfl, rfl, rfl, rfl, rfl, rfl, rfl, rfl⟩

theorem OnlyJobs.trans {a b c : Db} (first : OnlyJobs a b) (second : OnlyJobs b c) :
    OnlyJobs a c := by
  constructor
  · exact second.sysinfo.trans first.sysinfo
  · exact second.selfinfo.trans first.selfinfo
  · exact second.files.trans first.files
  · exact second.receiversComms.trans first.receiversComms
  · exact second.receivingConns.trans first.receivingConns
  · exact second.sendingConns.trans first.sendingConns
  · exact second.sendersComms.trans first.sendersComms
  · exact second.rcomidSeq.trans first.rcomidSeq
  · exact second.scommidSeq.trans first.scommidSeq

/-- The tables that neither `sysinfo` nor its triggers write are the same. -/
structure OnlySysinfo (db db' : Db) : Prop where
  jobScheduler : db'.jobScheduler = db.jobScheduler
  selfinfo : db'.selfinfo = db.selfinfo
  files : db'.files = db.files
  receivingConns : db'.receivingConns = db.receivingConns
  sendingConns : db'.sendingConns = db.sendingConns
  sendersComms : db'.sendersComms = db.sendersComms
  scommidSeq : db'.scommidSeq = db.scommidSeq

theorem OnlySysinfo.refl (db : Db) : OnlySysinfo db db := ⟨rfl, rfl, rfl, rfl, rfl, rfl, rfl⟩

theorem OnlySysinfo.trans {a b c : Db} (first : OnlySysinfo a b) (second : OnlySysinfo b c) :
    OnlySysinfo a c := by
  constructor
  · exact second.jobScheduler.trans first.jobScheduler
  · exact second.selfinfo.trans first.selfinfo
  · exact second.files.trans first.files
  · exact second.receivingConns.trans first.receivingConns
  · exact second.sendingConns.trans first.sendingConns
  · exact second.sendersComms.trans first.sendersComms
  · exact second.scommidSeq.trans first.scommidSeq

theorem onlyJobs_update (db : Db) (condition : Job → Bool) (change : Job → Job) :
    OnlyJobs db (db.updateJobs condition change) := ⟨rfl, rfl, rfl, rfl, rfl, rfl, rfl, rfl, rfl⟩

theorem insertJob_ok {db db' : Db} {job : Job} (done : db.insertJob job = .ok db') :
    db'.jobScheduler = db.jobScheduler ++ [job] ∧ OnlyJobs db db' ∧
      job.jobid ∉ db.jobids ∧ job.jparentJobid ∈ db.jobids := by
  unfold Db.insertJob at done
  split at done
  · cases done
  · next absent =>
      split at done
      · cases done
      · next present =>
          obtain rfl := Except.ok.inj done
          exact ⟨rfl, ⟨rfl, rfl, rfl, rfl, rfl, rfl, rfl, rfl, rfl⟩, absent, by simpa using present⟩

theorem insertJob_total {db : Db} {job : Job} (fresh : job.jobid ∉ db.jobids)
    (parent : job.jparentJobid ∈ db.jobids) : ∃ db', db.insertJob job = .ok db' := by
  unfold Db.insertJob
  rw [if_neg fresh, if_neg (not_not.mpr parent)]
  exact ⟨_, rfl⟩

theorem insertJobs_ok {db db' : Db} {rows : List Job} (done : db.insertJobs rows = .ok db') :
    db'.jobScheduler = db.jobScheduler ++ rows ∧ OnlyJobs db db' := by
  unfold Db.insertJobs at done
  induction rows generalizing db with
  | nil =>
      obtain rfl := pure_ok.mp done
      exact ⟨(List.append_nil _).symm, OnlyJobs.refl db⟩
  | cons job rest ih =>
      obtain ⟨u, head, tail⟩ := bind_ok.mp done
      obtain ⟨one, first, -, -⟩ := insertJob_ok head
      obtain ⟨all, second⟩ := ih tail
      exact ⟨by rw [all, one, List.append_assoc, List.singleton_append], first.trans second⟩

structure Db.Keys (db : Db) : Prop where
  jobids : db.jobids.Nodup
  parents : ∀ job ∈ db.jobScheduler, job.jparentJobid ∈ db.jobids

theorem keys_map {db db' : Db} {change : Job → Job}
    (split : db'.jobScheduler = db.jobScheduler.map change)
    (kept : ∀ job, (change job).jobid = job.jobid ∧ (change job).jparentJobid = job.jparentJobid)
    (keys : db.Keys) : db'.Keys := by
  have same : db'.jobids = db.jobids := by
    rw [Db.jobids, split, List.map_map, Db.jobids]
    exact List.map_congr_left fun job _ => (kept job).1
  refine ⟨same ▸ keys.jobids, fun job member => ?_⟩
  rw [split] at member
  obtain ⟨old, inside, rfl⟩ := List.mem_map.mp member
  rw [(kept old).2, same]
  exact keys.parents old inside

theorem keys_insertJob {db db' : Db} {job : Job} (done : db.insertJob job = .ok db')
    (keys : db.Keys) : db'.Keys := by
  obtain ⟨appended, -, absent, present⟩ := insertJob_ok done
  have ids : db'.jobids = db.jobids ++ [job.jobid] := by
    rw [Db.jobids, appended, List.map_append, List.map_singleton, Db.jobids]
  constructor
  · rw [ids, List.nodup_append]
    refine ⟨keys.jobids, List.nodup_singleton _, ?_⟩
    intro id member other single same
    rw [List.mem_singleton] at single
    exact absent (single ▸ same ▸ member)
  · intro row member
    rw [appended] at member
    rw [ids]
    rcases List.mem_append.mp member with old | new
    · exact List.mem_append_left _ (keys.parents row old)
    · rw [List.mem_singleton.mp new]
      exact List.mem_append_left _ present

theorem keys_insertJobs {db db' : Db} {rows : List Job} (done : db.insertJobs rows = .ok db')
    (keys : db.Keys) : db'.Keys :=
  foldlM_keeps Db.Keys (fun _ _ _ _ kept moved => keys_insertJob moved kept) keys done

theorem keys_same {db db' : Db} (same : db'.jobScheduler = db.jobScheduler) (keys : db.Keys) :
    db'.Keys := by
  have ids : db'.jobids = db.jobids := by rw [Db.jobids, same, Db.jobids]
  exact ⟨ids ▸ keys.jobids, fun job member => ids ▸ keys.parents job (same ▸ member)⟩

/-- Every row of `db` is kept, and the rows appended were made in a way that `made` tells. -/
def Evolves (w : Scope) (made : Job → Prop) (db db' : Db) : Prop :=
  (db.Keys → db'.Keys) ∧
  ∃ (change : Job → Job) (fresh : List Job), (∀ job, JobKept w job (change job)) ∧
    db'.jobScheduler = db.jobScheduler.map change ++ fresh ∧ ∀ job ∈ fresh, made job

theorem JobKept.promote {job : Job} {t : JState} (step : Promote w job.jstate t) (other : t ≠ .N4) :
    JobKept w job { job with jstate := t } :=
  ⟨rfl, rfl, rfl, rfl, rfl, Relation.ReflTransGen.single step, .inl rfl, .inl rfl,
    fun _ state => absurd state other⟩

section Evolves

variable {made : Job → Prop} {a b c db db' : Db}

theorem Evolves.of_eq (same : db'.jobScheduler = db.jobScheduler) : Evolves w made db db' :=
  ⟨keys_same same, id, [], JobKept.refl, by rw [same, List.map_id, List.append_nil], by simp⟩

theorem Evolves.mono {made' : Job → Prop} (evolves : Evolves w made db db')
    (weaker : ∀ job, made job → made' job) : Evolves w made' db db' := by
  obtain ⟨keys, change, fresh, kept, split, each⟩ := evolves
  exact ⟨keys, change, fresh, kept, split, fun job member => weaker job (each job member)⟩

theorem Evolves.trans (fixed : ∀ job, made job → Fixed job.jstate) (first : Evolves w made a b)
    (second : Evolves w made b c) : Evolves w made a c := by
  obtain ⟨keys, change, fresh, kept, split, each⟩ := first
  obtain ⟨keys', change', fresh', kept', split', each'⟩ := second
  refine ⟨keys' ∘ keys, change' ∘ change, fresh ++ fresh',
    fun job => (kept job).trans (kept' _), ?_, ?_⟩
  · have same : fresh.map change' = fresh :=
      (List.map_congr_left fun job member => (kept' job).fixed (fixed job (each job member))).trans
        (List.map_id fresh)
    rw [split', split, List.map_append, List.map_map, same, List.append_assoc]
  · intro job member
    rcases List.mem_append.mp member with old | new
    · exact each job old
    · exact each' job new

theorem Evolves.mem_of_stuck (evolves : Evolves w made db db') {job : Job}
    (member : job ∈ db.jobScheduler) (stuck : ∀ t, ¬ Promote w job.jstate t) :
    job ∈ db'.jobScheduler := by
  obtain ⟨-, change, fresh, kept, split, -⟩ := evolves
  rw [split]
  exact List.mem_append_left _ (List.mem_map.mpr ⟨job, member, (kept job).stays stuck⟩)

theorem filter_unchanged {jobs : List Job} {change : Job → Job} {chosen : Job → Bool}
    (kept : ∀ job, chosen job = true ∨ chosen (change job) = true → change job = job) :
    (jobs.map change).filter chosen = jobs.filter chosen := by
  induction jobs with
  | nil => rfl
  | cons job rest ih =>
      rw [List.map_cons, List.filter_cons, List.filter_cons, ih]
      by_cases either : chosen job = true ∨ chosen (change job) = true
      · rw [kept job either]
      · rw [not_or] at either
        rw [if_neg either.1, if_neg either.2]

theorem evolves_map {change : Job → Job} (kept : ∀ job, JobKept w job (change job))
    (split : db'.jobScheduler = db.jobScheduler.map change) : Evolves w made db db' :=
  ⟨keys_map split fun job => ⟨(kept job).jobid, (kept job).jparentJobid⟩, change, [], kept,
    by rw [split, List.append_nil], by simp⟩

theorem evolves_update (db : Db) {condition : Job → Bool} {change : Job → Job}
    (keeps : ∀ job, condition job = true → JobKept w job (change job)) :
    Evolves w made db (db.updateJobs condition change) := by
  have kept (job : Job) : JobKept w job (if condition job then change job else job) := by
    split
    · next holds => exact keeps job holds
    · exact JobKept.refl job
  exact evolves_map kept rfl

theorem updateJobsM_ok {condition : Job → Sql Bool} {change : Job → Job}
    (done : db.updateJobsM condition change = .ok db') :
    OnlyJobs db db' ∧ (∀ job ∈ db.jobScheduler, ∃ holds, condition job = .ok holds) ∧
      db'.jobScheduler = db.jobScheduler.map fun job =>
        if condition job = .ok true then change job else job := by
  unfold Db.updateJobsM at done
  simp only [bind_ok, pure_ok] at done
  obtain ⟨chosen, found, rfl⟩ := done
  have each := mapM_ok.mp found
  simp only [bind_ok, pure_ok] at each
  refine ⟨⟨rfl, rfl, rfl, rfl, rfl, rfl, rfl, rfl, rfl⟩, ?_, ?_⟩
  · intro job member
    obtain ⟨_, -, holds, known, -⟩ := forall₂_mem_left each member
    exact ⟨holds, known⟩
  · refine forall₂_map_eq each fun job _ pair ⟨holds, known, same⟩ => ?_
    subst same
    simp [known]

theorem evolves_updateM {condition : Job → Sql Bool} {change : Job → Job}
    (keeps : ∀ job, condition job = .ok true → JobKept w job (change job))
    (done : db.updateJobsM condition change = .ok db') : Evolves w made db db' := by
  refine evolves_map (fun job => ?_) (updateJobsM_ok done).2.2
  split
  · next holds => exact keeps job holds
  · exact JobKept.refl job

theorem evolves_insert {rows : List Job} (done : db.insertJobs rows = .ok db')
    (each : ∀ job ∈ rows, made job) : Evolves w made db db' :=
  ⟨keys_insertJobs done, id, rows, JobKept.refl, by rw [(insertJobs_ok done).1, List.map_id], each⟩

end Evolves

open RunJobs in
theorem scalar_ok {α : Type} {xs : List α} {found : Option α} (done : scalar xs = .ok found) :
    xs = found.toList := by
  unfold scalar at done
  split at done
  · rw [← Except.ok.inj done, Option.toList_none]
  · rw [← Except.ok.inj done, Option.toList_some]
  · cases done

theorem insertUnderRoot_ok {db db' : Db} {make : Job → Job}
    (done : db.insertUnderRoot make = .ok db') :
    ∃ top ∈ db.jobScheduler, top.jparentJobid = top.jobid ∧ db.insertJob (make top) = .ok db' := by
  unfold Db.insertUnderRoot at done
  obtain ⟨found, read, rest⟩ := bind_ok.mp done
  cases found with
  | none => cases rest
  | some top =>
      have only := scalar_ok read
      have chosen : top ∈ db.jobScheduler.filter fun job => job.jparentJobid = job.jobid := by
        rw [only]
        exact List.mem_singleton.mpr rfl
      obtain ⟨member, test⟩ := List.mem_filter.mp chosen
      exact ⟨top, member, by simpa using test, rest⟩

theorem sendFile_ok {db db' : Db} {id : Uuid} {fileName destination : Text}
    (done : db.sendFile id fileName destination = .ok db') :
    OnlyJobs db db' ∧ (db'.jobScheduler = db.jobScheduler ∨
      ∃ job : Job, db'.jobScheduler = db.jobScheduler ++ [job] ∧ job.jobid = id ∧
        byteain fileName = .ok job.jobdata ∧ job.jstate = .S ∧
        job.jdestination = lpad destination 5) := by
  unfold Db.sendFile at done
  split at done
  · obtain ⟨jobdata, read, rest⟩ := bind_ok.mp done
    obtain ⟨root, -, -, inserted⟩ := insertUnderRoot_ok rest
    obtain ⟨appended, only, -, -⟩ := insertJob_ok inserted
    exact ⟨only, .inr ⟨_, appended, rfl, read, rfl, rfl⟩⟩
  · obtain rfl := pure_ok.mp done
    exact ⟨.refl db, .inl rfl⟩

theorem importFile_ok {db db' : Db} {file : File} (done : db.importFile file = .ok db') :
    db' = { db with files := db.files ++ [file] } := by
  unfold Db.importFile at done
  split at done
  · cases done
  · exact (Except.ok.inj done).symm

theorem mem_updateStatus {db : Db} {id : Uuid} {status : Int} {job : Job}
    (member : job ∈ (db.updateStatus id status).jobScheduler) :
    job ∈ db.jobScheduler ∨ job.jstate = .C ∨ job.jstate = .D := by
  obtain ⟨old, inside, rfl⟩ := List.mem_map.mp member
  split
  · refine .inr ?_
    dsimp only
    split
    · exact .inl rfl
    · exact .inr rfl
  · exact .inl inside

section Statements

open RunJobs

variable {env : Env} {made : Job → Prop} {db db' : Db}

theorem JobKept.move {job : Job} {s t : JState} (state : job.jstate = s) (step : Promote w s t)
    (other : t ≠ .N4) : JobKept w job { job with jstate := t } := JobKept.promote (state ▸ step) other

theorem evolves_checkHash (db : Db) : Evolves w made db (checkHash db) := by
  have both (db : Db) (test : Job → Bool) {t : JState} (step : Promote w .N1 t)
        (other : t ≠ .N4) : Evolves w (fun _ => False) db (db.updateJobs (fun job => job.jstate = .N1 && test job)
        fun job => { job with jstate := t }) := by
    refine evolves_update db fun job holds => ?_
    simp only [Bool.and_eq_true, decide_eq_true_eq] at holds
    exact JobKept.move holds.1 step other
  have whole := (both db (fun job => hashMatches job.jobdata) .accept nofun).trans (by simp)
    (both _ (fun job => !hashMatches job.jobdata) .reject nofun)
  exact whole.mono fun _ h => h.elim

theorem onlyJobs_checkHash (db : Db) : OnlyJobs db (checkHash db) :=
  (onlyJobs_update _ _ _).trans (onlyJobs_update _ _ _)

theorem evolves_route (db : Db) : Evolves w made db (route db) := by
  have first : Evolves w (fun _ => False) db (db.updateJobs
      (fun job => job.jstate = .N2 && messageDestination job.jobdata ∈ rootDestinations db)
      fun job => { job with jstate := .N3 }) := by
    refine evolves_update db fun job holds => ?_
    simp only [Bool.and_eq_true, decide_eq_true_eq] at holds
    exact JobKept.move holds.1 .arrive nofun
  refine (first.trans (by simp) (evolves_update _ fun job holds => ?_)).mono fun _ h => h.elim
  simp only [Bool.and_eq_true, decide_eq_true_eq] at holds
  exact ⟨rfl, rfl, rfl, rfl, rfl, .single (holds.1 ▸ .forward), .inr ⟨.inr (.inl holds.1), rfl⟩,
    .inl rfl, nofun⟩

theorem onlyJobs_route (db : Db) : OnlyJobs db (route db) :=
  (onlyJobs_update _ _ _).trans (onlyJobs_update _ _ _)

theorem evolves_identifyType (db : Db) : Evolves w made db (identifyType db) := by
  refine evolves_update db fun job holds => ?_
  have state : job.jstate = .N3 := by simpa using holds
  exact ⟨rfl, rfl, rfl, rfl, rfl, .single (state ▸ .identify), .inl rfl,
    .inr ⟨.inr (.inr state), rfl⟩, fun _ _ => rfl⟩

theorem completeSplit_ok (done : completeSplit db = .ok db') :
    ((∀ job ∈ db.jobScheduler, job.jstate ≠ .S2W) ∧ db' = db) ∨
    ∃ parents, completedParents db = .ok parents ∧
      db' = db.updateJobs (fun job => job.jstate = .S2W && job.jobid ∈ parents)
        fun job => { job with jstate := .C } := by
  unfold completeSplit at done
  split at done
  · obtain ⟨parents, found, rest⟩ := bind_ok.mp done
    exact .inr ⟨parents, found, (pure_ok.mp rest).symm⟩
  · next nothing =>
      refine .inl ⟨fun job member waiting => nothing ?_, (pure_ok.mp done).symm⟩
      exact List.any_eq_true.mpr ⟨job, member, by simpa using waiting⟩

theorem evolves_completeSplit (h : w.completes = true) (done : completeSplit db = .ok db') :
    Evolves w made db db' ∧ OnlyJobs db db' := by
  rcases completeSplit_ok done with ⟨-, rfl⟩ | ⟨parents, -, rfl⟩
  · exact ⟨.of_eq rfl, .refl _⟩
  · refine ⟨evolves_update db fun job holds => ?_, onlyJobs_update _ _ _⟩
    simp only [Bool.and_eq_true, decide_eq_true_eq] at holds
    exact JobKept.move holds.1 (.completeSplit h) nofun

theorem evolves_completeSingle (db : Db) : Evolves w made db (completeSingle db) := by
  refine evolves_update db fun job holds => ?_
  simp only [Bool.and_eq_true, decide_eq_true_eq] at holds
  exact JobKept.move holds.1 .completeSingle nofun

theorem evolves_startKnown (db : Db) : Evolves w made db (startKnown db) := by
  refine evolves_update db fun job holds => ?_
  simp only [Bool.and_eq_true, decide_eq_true_eq] at holds
  exact JobKept.move holds.2 .start nofun

theorem evolves_finishPending (digit : String) (db : Db) :
    Evolves w made db (finishPending digit db) := by
  refine evolves_update db fun job holds => ?_
  simp only [Bool.and_eq_true, decide_eq_true_eq] at holds
  exact JobKept.move holds.1 .answer nofun

theorem consensusJob_row {id parent : Uuid} {type destination : Text} {capacity : Int}
    {own : SelfInfo} {job : Job}
    (done : consensusJob env id type capacity own destination parent = .ok job) :
    job.jobid = id ∧ job.jstate = .S5 ∧ job.jtype = type ∧ job.jparentJobid = parent ∧
      job.jdestination = destination := by
  unfold consensusJob at done
  obtain ⟨data, -, rest⟩ := bind_ok.mp done
  obtain rfl := pure_ok.mp rest
  exact ⟨rfl, rfl, rfl, rfl, rfl⟩

/-- A type 4 request to a known system, for a job in S. -/
def IsRequestRow (env : Env) (db : Db) (job : Job) : Prop :=
  ∃ i, ∃ si ∈ db.sysinfo, ∃ js ∈ db.jobScheduler, js.jstate = .S ∧
    consensusJob env (env.uuid 0 i) (ascii "4") db.selfinfo.systemCapacity db.selfinfo
      si.systemName js.jparentJobid = .ok job

theorem mem_zipIdx_left {α : Type} {rows : List α} {pair : α × Nat} (member : pair ∈ rows.zipIdx) :
    pair.1 ∈ rows := by
  obtain ⟨-, -, same⟩ := List.mem_zipIdx member
  rw [same]
  exact List.getElem_mem _

theorem requestConsensus_ok (done : requestConsensus env db = .ok db') :
    Evolves w (IsRequestRow env db) db db' ∧ OnlyJobs db db' := by
  unfold requestConsensus at done
  obtain ⟨rows, built, inserted⟩ := bind_ok.mp done
  refine ⟨evolves_insert inserted fun job member => ?_, (insertJobs_ok inserted).2⟩
  obtain ⟨⟨⟨si, js⟩, i⟩, inside, made⟩ := forall₂_mem_right (mapM_ok.mp built) member
  have known := mem_zipIdx_left inside
  simp only [connInfoSending, List.mem_flatMap, List.mem_map] at known
  obtain ⟨found, present, js', chosen, same⟩ := known
  obtain ⟨rfl, rfl⟩ := Prod.mk.inj same
  obtain ⟨inside, test⟩ := List.mem_filter.mp chosen
  simp only [Bool.and_eq_true, decide_eq_true_eq] at test
  exact ⟨i, found, present, js', inside, test.2, made⟩

theorem IsRequestRow.fixed {job : Job} (row : IsRequestRow env db job) : Fixed job.jstate := by
  obtain ⟨i, si, -, js, -, -, made⟩ := row
  rw [(consensusJob_row made).2.1]
  exact fixed_s5

theorem IsRequestRow.before {job : Job} (row : IsRequestRow env db' job)
    (evolves : Evolves w (fun _ => False) db db') (only : OnlyJobs db db') :
    IsRequestRow env db job := by
  obtain ⟨i, si, present, js, member, state, made⟩ := row
  obtain ⟨-, change, fresh, kept, split, each⟩ := evolves
  rw [split] at member
  rcases List.mem_append.mp member with old | new
  · obtain ⟨js', inside, rfl⟩ := List.mem_map.mp old
    rw [only.selfinfo, (kept js').jparentJobid] at made
    exact ⟨i, si, only.sysinfo ▸ present, js', inside,
      Promotes.of_s (state ▸ (kept js').jstate), made⟩
  · exact (each js new).elim

/-- The statements up to the jobs in S-2W. -/
def receive (db : Db) : Db := identifyType (route (checkHash db))

theorem receive_ok (db : Db) : Evolves w made db (receive db) ∧ OnlyJobs db (receive db) := by
  have whole : Evolves w (fun _ => False) db (receive db) :=
    ((evolves_checkHash db).trans (by simp) (evolves_route _)).trans (by simp)
      (evolves_identifyType _)
  refine ⟨whole.mono fun _ h => h.elim, ?_⟩
  exact ((onlyJobs_checkHash db).trans (onlyJobs_route _)).trans (onlyJobs_update _ _ _)

theorem promote_cases (done : promote env db = .ok db') :
    ∃ u, completeSplit (receive db) = .ok u ∧ Evolves w (IsRequestRow env u) u db' ∧
      OnlyJobs u db' := by
  unfold promote at done
  obtain ⟨u, split, rest⟩ := bind_ok.mp done
  obtain ⟨v, request, last⟩ := bind_ok.mp rest
  obtain rfl := pure_ok.mp last
  obtain ⟨third, onlyRequest⟩ := requestConsensus_ok request
  have only : OnlyJobs u (completeSingle u) := onlyJobs_update _ _ _
  have rows : Evolves w (IsRequestRow env u) (completeSingle u) v :=
    third.mono fun job row => row.before (evolves_completeSingle (w := w) u) only
  refine ⟨u, split, ?_, (only.trans onlyRequest).trans (onlyJobs_update _ _ _)⟩
  exact ((evolves_completeSingle u).trans (fun _ => IsRequestRow.fixed) rows).trans
    (fun _ => IsRequestRow.fixed) (evolves_startKnown v)

theorem promote_ok (h : w.completes = true) (done : promote env db = .ok db') :
    Evolves w (IsRequestRow env db) db db' ∧ OnlyJobs db db' := by
  obtain ⟨u, split, evolves, only⟩ := promote_cases (w := w) done
  obtain ⟨first, onlyFirst⟩ : Evolves w (fun _ => False) db (receive db) ∧ _ := receive_ok db
  obtain ⟨second, onlySecond⟩ : Evolves w (fun _ => False) (receive db) u ∧ _ :=
    evolves_completeSplit h split
  have start := first.trans (by simp) second
  have onlyStart := onlyFirst.trans onlySecond
  have rows := evolves.mono fun job row => row.before start onlyStart
  exact ⟨(start.mono fun _ h => h.elim).trans (fun _ => IsRequestRow.fixed) rows,
    onlyStart.trans only⟩

theorem onlySysinfo_createComms (db : Db) (row : SysInfo) :
    OnlySysinfo db (db.createComms row) ∧ (db.createComms row).sysinfo = db.sysinfo := by
  unfold Db.createComms
  split
  · exact ⟨.refl db, rfl⟩
  · split
    · exact ⟨.refl db, rfl⟩
    · exact ⟨⟨rfl, rfl, rfl, rfl, rfl, rfl, rfl⟩, rfl⟩

theorem onlySysinfo_foldl (rows : List SysInfo) (db : Db) :
    OnlySysinfo db (rows.foldl Db.createComms db) ∧
      (rows.foldl Db.createComms db).sysinfo = db.sysinfo := by
  induction rows generalizing db with
  | nil => exact ⟨.refl db, rfl⟩
  | cons row rest ih =>
      obtain ⟨only, same⟩ := onlySysinfo_createComms db row
      obtain ⟨later, kept⟩ := ih (db.createComms row)
      exact ⟨only.trans later, kept.trans same⟩

theorem writeSysinfo_ok (db : Db) (condition : SysInfo → Bool) (change : SysInfo → SysInfo) :
    OnlySysinfo db (writeSysinfo db condition change) ∧
      (writeSysinfo db condition change).sysinfo =
        db.sysinfo.map fun si => if condition si then change si else si := by
  obtain ⟨only, same⟩ := onlySysinfo_foldl ((db.sysinfo.filter condition).map change) { db with
    sysinfo := db.sysinfo.map fun si => if condition si then change si else si }
  exact ⟨⟨only.jobScheduler, only.selfinfo, only.files, only.receivingConns, only.sendingConns,
    only.sendersComms, only.scommidSeq⟩, same⟩

theorem scalar_filter {α : Type} {x : α} {test : α → Bool} {found : Option α}
    (done : scalar ([x].filter test) = .ok found) :
    (found = none ∨ found = some x) ∧ (test x = true → found = some x) := by
  have only := scalar_ok done
  cases found with
  | none =>
      refine ⟨.inl rfl, fun fits => ?_⟩
      rw [List.filter_cons_of_pos fits] at only
      cases only
  | some y =>
      have listed : y ∈ [x].filter test := only ▸ List.mem_singleton.mpr rfl
      have same : some y = some x :=
        congrArg some (List.mem_singleton.mp (List.mem_of_mem_filter listed))
      exact ⟨.inr same, fun _ => same⟩

/-- What an upsert can have done when it completes: it writes the rows that it conflicts with, or
appends one under an address that no row has. -/
theorem upsertSysinfo_ok {info : List (Request × Option Int)} {row : Request × Option Int}
    (done : upsertSysinfo info db row = .ok db') :
    (∃ found, scalar (info.filter fun ci =>
        ci.1.sourceName = rtrim (lpad row.1.sourceName 5) && ci.1.sourceIp = row.1.sourceIp) =
          .ok found ∧
      (∃ si ∈ db.sysinfo, si.systemName = rtrim (lpad row.1.sourceName 5) ∧
        si.ipaddress = row.1.sourceIp) ∧
      db' = writeSysinfo db (fun si =>
          si.systemName = rtrim (lpad row.1.sourceName 5) && si.ipaddress = row.1.sourceIp)
        fun si => { si with
          systemCapacity := found.bind Prod.snd, dataport := found.map fun ci => ci.1.rport }) ∨
    ∃ new : SysInfo, new = ⟨rtrim (lpad row.1.sourceName 5), row.1.sourceIp, some row.1.rport, 7000,
        row.2⟩ ∧ (∀ si ∈ db.sysinfo, si.ipaddress ≠ row.1.sourceIp) ∧
      db' = Db.createComms { db with sysinfo := db.sysinfo ++ [new] } new := by
  unfold upsertSysinfo at done
  simp only at done
  split at done
  · next conflict =>
      obtain ⟨si, member, same⟩ := List.any_eq_true.mp conflict
      simp only [Bool.and_eq_true, decide_eq_true_eq] at same
      obtain ⟨found, read, rest⟩ := bind_ok.mp done
      exact .inl ⟨found, read, ⟨si, member, same⟩, (pure_ok.mp rest).symm⟩
  · split at done
    · cases done
    · next unknown =>
        refine .inr ⟨_, rfl, fun si member same => unknown ?_, (pure_ok.mp done).symm⟩
        exact List.any_eq_true.mpr ⟨si, member, by simpa using same⟩

theorem upsertSysinfo_frame {info : List (Request × Option Int)} {row : Request × Option Int}
    (done : upsertSysinfo info db row = .ok db') : OnlySysinfo db db' := by
  rcases upsertSysinfo_ok done with ⟨found, -, -, rfl⟩ | ⟨new, -, -, rfl⟩
  · exact (writeSysinfo_ok db _ _).1
  · obtain ⟨only, -⟩ := onlySysinfo_createComms { db with sysinfo := db.sysinfo ++ [new] } new
    exact ⟨only.jobScheduler, only.selfinfo, only.files, only.receivingConns, only.sendingConns,
      only.sendersComms, only.scommidSeq⟩

theorem learnRequests_frame (done : learnRequests db = .ok db') : OnlySysinfo db db' := by
  unfold learnRequests at done
  obtain ⟨requests, -, rest⟩ := bind_ok.mp done
  obtain ⟨info, -, writes⟩ := bind_ok.mp rest
  exact foldlM_keeps (OnlySysinfo db) (fun s _ t _ kept moved =>
    kept.trans (upsertSysinfo_frame moved)) (.refl db) writes

theorem learnRequests_nil (none : pending "4" db = []) : learnRequests db = .ok db := by
  simp [learnRequests, connInfoReceiving, connInfo, none, pure, Except.pure, bind, Except.bind]

theorem learnRequests_one {request : Job} (one : pending "4" db = [request]) :
    learnRequests db = (requestOf request >>= fun r =>
      upsertSysinfo [(r, some (smaller db.selfinfo.systemCapacity r.rcapacity))] db
        (r, some (smaller db.selfinfo.systemCapacity r.rcapacity))) := by
  simp only [learnRequests, connInfoReceiving, one, List.mapM_cons, List.mapM_nil]
  cases requestOf request with
  | error e => rfl
  | ok r =>
      simp only [bind, Except.bind, pure, Except.pure, connInfo, List.mapM_cons, List.mapM_nil,
        List.map_cons, List.map_nil, scalar, List.foldlM_cons, List.foldlM_nil]
      cases upsertSysinfo [(r, some (smaller db.selfinfo.systemCapacity r.rcapacity))] db
        (r, some (smaller db.selfinfo.systemCapacity r.rcapacity)) <;> rfl

theorem connInfo_many {own : Int} {requests : List Request} (many : 2 ≤ requests.length) :
    connInfo own requests = .error .cardinality := by
  match requests, many with
  | a :: b :: rest, _ => simp [connInfo, scalar, bind, Except.bind]

/-- The upsert raises when two requests are pending. -/
theorem learnRequests_many (many : 2 ≤ (pending "4" db).length) : learnRequests db ≠ .ok db' := by
  intro done
  unfold learnRequests at done
  obtain ⟨requests, read, rest⟩ := bind_ok.mp done
  have count := (mapM_ok.mp read).length_eq
  rw [connInfo_many (count ▸ many)] at rest
  cases rest

def replyTo (env : Env) (db : Db) (request : Job) (asked : Int) : Sql Job :=
  consensusJob env (env.uuid 1 0) (ascii "5") (smaller db.selfinfo.systemCapacity asked) db.selfinfo
    (messageSource request.jobdata) request.jparentJobid

theorem queueReplies_nil (none : pending "4" db = []) : queueReplies env db = .ok db := by
  simp [queueReplies, none, Db.insertJobs, pure, Except.pure, bind, Except.bind]

theorem queueReplies_one {request : Job} (one : pending "4" db = [request]) :
    queueReplies env db = (capacityField request.jobdata >>= fun asked =>
      replyTo env db request asked >>= fun reply => db.insertJob reply) := by
  simp only [queueReplies, one, List.mapM_cons, List.mapM_nil]
  cases capacityField request.jobdata with
  | error e => rfl
  | ok asked =>
      simp only [bind, Except.bind, pure, Except.pure, List.zipIdx_cons, List.zipIdx_nil,
        List.mapM_cons, List.mapM_nil, List.map_cons, List.map_nil, scalar, replyTo]
      cases consensusJob env (env.uuid 1 0) (ascii "5") (smaller db.selfinfo.systemCapacity asked)
        db.selfinfo (messageSource request.jobdata) request.jparentJobid with
      | error e => rfl
      | ok reply =>
          simp only [Db.insertJobs, List.foldlM_cons, List.foldlM_nil]
          cases db.insertJob reply <;> rfl

theorem answerRequests_ok (done : answerRequests env db = .ok db') :
    (pending "4" db = [] ∧ db' = finishPending "4" db) ∨
    ∃ request r reply u v, pending "4" db = [request] ∧ requestOf request = .ok r ∧
      upsertSysinfo [(r, some (smaller db.selfinfo.systemCapacity r.rcapacity))] db
        (r, some (smaller db.selfinfo.systemCapacity r.rcapacity)) = .ok u ∧
      replyTo env db request r.rcapacity = .ok reply ∧ u.insertJob reply = .ok v ∧
      db' = finishPending "4" v := by
  unfold answerRequests at done
  obtain ⟨u, learned, rest⟩ := bind_ok.mp done
  obtain ⟨v, queued, last⟩ := bind_ok.mp rest
  obtain rfl := pure_ok.mp last
  match requests : pending "4" db with
  | [] =>
      obtain rfl := Except.ok.inj ((learnRequests_nil requests).symm.trans learned)
      obtain rfl := Except.ok.inj ((queueReplies_nil requests).symm.trans queued)
      exact .inl ⟨rfl, rfl⟩
  | [request] =>
      rw [learnRequests_one requests] at learned
      obtain ⟨r, read, written⟩ := bind_ok.mp learned
      have frame := upsertSysinfo_frame written
      have same : pending "4" u = [request] := by
        rw [← requests, pending, frame.jobScheduler, pending]
      rw [queueReplies_one same] at queued
      obtain ⟨asked, field, queued⟩ := bind_ok.mp queued
      obtain ⟨reply, made, inserted⟩ := bind_ok.mp queued
      have known : asked = r.rcapacity := by
        simp only [requestOf, field, bind, Except.bind, pure, Except.pure] at read
        split at read
        · cases read
        · split at read
          · cases read
          · rw [← Except.ok.inj read]
      subst known
      refine .inr ⟨request, r, reply, u, v, rfl, read, written, ?_, inserted, rfl⟩
      rw [← made, replyTo, replyTo, frame.selfinfo]
  | a :: b :: rest => exact absurd learned (learnRequests_many (by simp [requests]))

/-- What `applyReplies` can have done when it completes: nothing, or one reply has been written to
every row that waits. -/
theorem applyReplies_ok (done : applyReplies db = .ok db') :
    db' = db ∨ ∃ reply : Int × Int, cteSysinfo db = .ok [reply] ∧ db.sysinfo.any waiting = true ∧
      db' = writeSysinfo db waiting fun si => { si with
        systemCapacity := some reply.1, dataport := some reply.2 } := by
  unfold applyReplies at done
  obtain ⟨cte, read, rest⟩ := bind_ok.mp done
  split at rest
  · exact .inl (pure_ok.mp rest).symm
  · next test =>
      simp only [Bool.or_eq_true, not_or, Bool.not_eq_true', List.isEmpty_iff,
        Bool.not_eq_false] at test
      obtain ⟨found, single, last⟩ := bind_ok.mp rest
      have only := scalar_ok single
      cases found with
      | none => exact absurd only test.1
      | some reply =>
          exact .inr ⟨reply, read.trans (congrArg Except.ok only), test.2, (pure_ok.mp last).symm⟩

theorem applyReplies_frame (done : applyReplies db = .ok db') : OnlySysinfo db db' := by
  rcases applyReplies_ok done with rfl | ⟨reply, -, -, rfl⟩
  · exact .refl _
  · exact (writeSysinfo_ok db _ _).1

theorem takeReplies_ok (done : takeReplies db = .ok db') :
    ∃ u, applyReplies db = .ok u ∧ db' = finishPending "5" u := by
  unfold takeReplies at done
  obtain ⟨u, applied, rest⟩ := bind_ok.mp done
  exact ⟨u, applied, (pure_ok.mp rest).symm⟩

theorem loGet_ok {data read : Bytea} (done : loGet data = .ok read) :
    read = data ∧ data.length ≤ maxField := by
  unfold loGet at done
  split at done
  · next small => exact ⟨(Except.ok.inj done).symm, small⟩
  · cases done

theorem messageJob_ok {mdata : Bytea} {type : Text} {js job : Job}
    (done : messageJob mdata type js = .ok job) :
    uuidIn (encode (substr mdata 33 36)) = .ok job.jobid ∧ job.jobdata = mdata ∧
      job.jstate = .S4 ∧ job.jtype = type ∧ job.jsource = js.jsource ∧
      job.jparentJobid = js.jobid ∧ job.jdestination = js.jdestination := by
  unfold messageJob at done
  obtain ⟨id, read, rest⟩ := bind_ok.mp done
  obtain rfl := pure_ok.mp rest
  exact ⟨read, rfl, rfl, rfl, rfl, rfl, rfl⟩

theorem evolves_startSplit (h : w.splits = true) (done : startSplit db = .ok db') :
    Evolves w made db db' := by
  refine evolves_updateM (fun job holds => ?_) done
  split at holds
  · next state => exact JobKept.move state (.split h) nofun
  · cases pure_ok.mp holds

theorem evolves_startSingle (h : w.splits = true) (done : startSingle db = .ok db') :
    Evolves w made db db' := by
  refine evolves_updateM (fun job holds => ?_) done
  split at holds
  · next state => exact JobKept.move state (.single h) nofun
  · cases pure_ok.mp holds

theorem evolves_awaitChildren (h : w.splits = true) (db : Db) :
    Evolves w made db (awaitChildren db) := by
  have first : Evolves w (fun _ => False) db (db.updateJobs
      (fun job => job.jstate = .S2 && knownName db job.jdestination)
      fun job => { job with jstate := .S2W }) := by
    refine evolves_update db fun job holds => ?_
    simp only [Bool.and_eq_true, decide_eq_true_eq] at holds
    exact JobKept.move holds.1 (.awaitSplit h) nofun
  refine (first.trans (by simp) (evolves_update _ fun job holds => ?_)).mono fun _ h => h.elim
  simp only [Bool.and_eq_true, decide_eq_true_eq] at holds
  exact JobKept.move holds.1 (.awaitSingle h) nofun

def IsMessageRow (job : Job) : Prop := ∃ mdata type js, messageJob mdata type js = .ok job

theorem IsMessageRow.jstate {job : Job} (row : IsMessageRow job) : job.jstate = .S4 := by
  obtain ⟨mdata, type, js, made⟩ := row
  exact (messageJob_ok made).2.2.1

theorem singleMessage_ok {row : (File × Job × SysInfo) × Nat} {job : Job}
    (done : singleMessage env row = .ok job) :
    ∃ mdata, createMessage env.now (env.uuid 2 row.2).text (ascii "1") [] row.1.1.fileData
        (btrim row.1.2.1.jsource) (btrim row.1.2.1.jdestination) row.1.2.1.jpriority
        row.1.2.2.systemCapacity = .ok mdata ∧
      messageJob mdata (ascii "1") row.1.2.1 = .ok job := by
  obtain ⟨⟨fd, js, si⟩, i⟩ := row
  obtain ⟨data, loaded, rest⟩ := bind_ok.mp done
  obtain ⟨mdata, sealing, last⟩ := bind_ok.mp rest
  obtain rfl := (loGet_ok loaded).1
  exact ⟨mdata, sealing, last⟩

theorem chunkMessage_ok {row : Chunk × Nat} {job : Job} (done : chunkMessage env row = .ok job) :
    ∃ mdata, createMessage env.now (env.uuid 3 row.2).text (ascii "2")
        (lpad (natText row.1.idx) 8 ++ row.1.js.jobid.text ++
          lpad (natText row.1.chunkData.length) 10)
        row.1.chunkData (btrim row.1.js.jsource) (btrim row.1.js.jdestination) row.1.js.jpriority
        (some row.1.systemCapacity) = .ok mdata ∧
      messageJob mdata (ascii "2") row.1.js = .ok job := by
  obtain ⟨mdata, sealing, last⟩ := bind_ok.mp done
  exact ⟨mdata, sealing, last⟩

theorem infoMessage_ok {row : (File × Job × SysInfo) × Nat} {job : Job}
    (done : infoMessage env row = .ok job) :
    ∃ capacity count mdata, row.1.2.2.systemCapacity = some capacity ∧
      ceilDiv row.1.1.fileData.length (capacity - 172) = .ok count ∧
      row.1.1.fileData.length ≤ maxField ∧
      createMessage env.now (env.uuid 4 row.2).text (ascii "3")
        (row.1.2.1.jobid.text ++ lpad (natText row.1.1.fileData.length) 12 ++
          lpad (intText count) 10) []
        (btrim row.1.2.1.jsource) (btrim row.1.2.1.jdestination) row.1.2.1.jpriority
        (some capacity) = .ok mdata ∧
      messageJob mdata (ascii "3") row.1.2.1 = .ok job := by
  obtain ⟨⟨fd, js, si⟩, i⟩ := row
  obtain ⟨data, loaded, rest⟩ := bind_ok.mp done
  obtain ⟨rfl, small⟩ := loGet_ok loaded
  dsimp only at rest ⊢
  split at rest
  · cases rest
  · next capacity known =>
      obtain ⟨size, room, rest⟩ := bind_ok.mp rest
      obtain ⟨count, quotient, rest⟩ := bind_ok.mp rest
      obtain ⟨mdata, sealing, last⟩ := bind_ok.mp rest
      rw [(int4_ok room).1] at quotient
      exact ⟨capacity, count, mdata, known, quotient, small, sealing, last⟩

theorem singleJob_ok (done : singleJob env db = .ok db') :
    Evolves w IsMessageRow db db' ∧ OnlyJobs db db' := by
  unfold singleJob at done
  obtain ⟨rows, -, rest⟩ := bind_ok.mp done
  obtain ⟨jobs, built, inserted⟩ := bind_ok.mp rest
  refine ⟨evolves_insert inserted fun job member => ?_, (insertJobs_ok inserted).2⟩
  obtain ⟨row, -, made⟩ := forall₂_mem_right (mapM_ok.mp built) member
  obtain ⟨mdata, -, last⟩ := singleMessage_ok made
  exact ⟨mdata, _, _, last⟩

theorem chunkJobs_ok (done : chunkJobs env db = .ok db') :
    Evolves w IsMessageRow db db' ∧ OnlyJobs db db' := by
  unfold chunkJobs at done
  obtain ⟨rows, -, rest⟩ := bind_ok.mp done
  obtain ⟨chunks, -, rest⟩ := bind_ok.mp rest
  obtain ⟨jobs, built, inserted⟩ := bind_ok.mp rest
  refine ⟨evolves_insert inserted fun job member => ?_, (insertJobs_ok inserted).2⟩
  obtain ⟨row, -, made⟩ := forall₂_mem_right (mapM_ok.mp built) member
  obtain ⟨mdata, -, last⟩ := chunkMessage_ok made
  exact ⟨mdata, _, _, last⟩

theorem infoJobs_ok (done : infoJobs env db = .ok db') :
    Evolves w IsMessageRow db db' ∧ OnlyJobs db db' := by
  unfold infoJobs at done
  obtain ⟨rows, -, rest⟩ := bind_ok.mp done
  obtain ⟨jobs, built, inserted⟩ := bind_ok.mp rest
  refine ⟨evolves_insert inserted fun job member => ?_, (insertJobs_ok inserted).2⟩
  obtain ⟨row, -, made⟩ := forall₂_mem_right (mapM_ok.mp built) member
  obtain ⟨_, _, mdata, -, -, -, -, last⟩ := infoMessage_ok made
  exact ⟨mdata, _, _, last⟩

theorem splitJobs_ok (h : w.splits = true) (done : splitJobs env db = .ok db') :
    Evolves w IsMessageRow db db' ∧ OnlyJobs db db' := by
  unfold splitJobs at done
  obtain ⟨a, split, rest⟩ := bind_ok.mp done
  obtain ⟨b, single, rest⟩ := bind_ok.mp rest
  obtain ⟨c, singles, rest⟩ := bind_ok.mp rest
  obtain ⟨d, chunks, rest⟩ := bind_ok.mp rest
  obtain ⟨e, infos, last⟩ := bind_ok.mp rest
  obtain rfl := pure_ok.mp last
  have fixed (job : Job) (row : IsMessageRow job) : Fixed job.jstate := row.jstate ▸ fixed_s4
  obtain ⟨third, onlyThird⟩ := singleJob_ok singles
  obtain ⟨fourth, onlyFourth⟩ := chunkJobs_ok chunks
  obtain ⟨fifth, onlyFifth⟩ := infoJobs_ok infos
  have started : Evolves w IsMessageRow db b :=
    (evolves_startSplit h split).trans fixed (evolves_startSingle h single)
  refine ⟨(((started.trans fixed third).trans fixed fourth).trans fixed fifth).trans fixed
    (evolves_awaitChildren h e), ?_⟩
  have only := (updateJobsM_ok split).1.trans (updateJobsM_ok single).1
  exact (((only.trans onlyThird).trans onlyFourth).trans onlyFifth).trans
    ((onlyJobs_update _ _ _).trans (onlyJobs_update _ _ _))

structure OnlyConns (db db' : Db) : Prop where
  jobScheduler : db'.jobScheduler = db.jobScheduler
  sysinfo : db'.sysinfo = db.sysinfo
  selfinfo : db'.selfinfo = db.selfinfo
  files : db'.files = db.files
  receiversComms : db'.receiversComms = db.receiversComms
  receivingConns : db'.receivingConns = db.receivingConns

theorem OnlyConns.trans {a b c : Db} (first : OnlyConns a b) (second : OnlyConns b c) :
    OnlyConns a c := by
  constructor
  · exact second.jobScheduler.trans first.jobScheduler
  · exact second.sysinfo.trans first.sysinfo
  · exact second.selfinfo.trans first.selfinfo
  · exact second.files.trans first.files
  · exact second.receiversComms.trans first.receiversComms
  · exact second.receivingConns.trans first.receivingConns

theorem OnlyConns.refl (db : Db) : OnlyConns db db := ⟨rfl, rfl, rfl, rfl, rfl, rfl⟩

theorem onlyConns_insertComm {mtype : MType} {row : Int × Option Int}
    (done : insertComm mtype db row = .ok db') :
    OnlyConns db db' ∧ db'.sendingConns = db.sendingConns := by
  unfold insertComm at done
  split at done
  · cases done
  · split at done
    · obtain rfl := Except.ok.inj done
      exact ⟨⟨rfl, rfl, rfl, rfl, rfl, rfl⟩, rfl⟩
    · obtain rfl := Except.ok.inj done
      exact ⟨⟨rfl, rfl, rfl, rfl, rfl, rfl⟩, rfl⟩

theorem onlyConns_insertComms {mtype : MType} {rows : List (Int × Option Int)}
    (done : rows.foldlM (insertComm mtype) db = .ok db') :
    OnlyConns db db' ∧ db'.sendingConns = db.sendingConns := by
  refine foldlM_keeps (fun u => OnlyConns db u ∧ u.sendingConns = db.sendingConns)
    (fun s _ t _ kept moved => ?_) ⟨OnlyConns.refl db, rfl⟩ done
  obtain ⟨only, same⟩ := onlyConns_insertComm moved
  exact ⟨kept.1.trans only, same.trans kept.2⟩

theorem onlyConns_registerConns (db : Db) : OnlyConns db (registerConns db) := by
  unfold registerConns
  generalize ((db.sysinfo.filter (hasReadyJob db)).map SysInfo.ipaddress).dedup = addresses
  suffices h : ∀ u, OnlyConns db u → OnlyConns db (addresses.foldl registerConn u) from
    h db (.refl db)
  induction addresses with
  | nil => exact fun u kept => kept
  | cons address rest ih =>
      intro u kept
      refine ih (registerConn u address) (kept.trans ?_)
      unfold registerConn
      split
      · exact .refl u
      · exact ⟨rfl, rfl, rfl, rfl, rfl, rfl⟩

theorem manageConns_frame (done : manageConns db = .ok db') : OnlyConns db db' := by
  unfold manageConns openConns closeConns at done
  obtain ⟨u, opened, closed⟩ := bind_ok.mp done
  exact ((onlyConns_registerConns db).trans (onlyConns_insertComms opened).1).trans
    (onlyConns_insertComms closed).1

theorem finishPass_ok {u : Db} (h : w.splits = true) (replied : takeReplies db = .ok u)
    (rest : (splitJobs env u >>= manageConns) = .ok db') :
    Evolves w IsMessageRow db db' ∧ db'.sysinfo = u.sysinfo ∧ db'.selfinfo = db.selfinfo := by
  obtain ⟨v, applied, rfl⟩ := takeReplies_ok replied
  obtain ⟨x, split, managed⟩ := bind_ok.mp rest
  have frame := applyReplies_frame applied
  obtain ⟨made, only⟩ : Evolves w IsMessageRow (finishPending "5" v) x ∧ OnlyJobs _ x :=
    splitJobs_ok h split
  have conns := manageConns_frame managed
  have fixed (job : Job) (row : IsMessageRow job) : Fixed job.jstate := row.jstate ▸ fixed_s4
  refine ⟨?_, conns.sysinfo.trans only.sysinfo, conns.selfinfo.trans (only.selfinfo.trans frame.selfinfo)⟩
  have first : Evolves w IsMessageRow db (finishPending "5" v) :=
    (Evolves.of_eq frame.jobScheduler).trans fixed (evolves_finishPending "5" v)
  exact (first.trans fixed made).trans fixed (.of_eq conns.jobScheduler)

def IsNewRow (job : Job) : Prop := job.jstate = .S4 ∨ job.jstate = .S5

theorem IsNewRow.fixed {job : Job} (row : IsNewRow job) : Fixed job.jstate := by
  rcases row with state | state
  · exact state ▸ fixed_s4
  · exact state ▸ fixed_s5

theorem IsRequestRow.new {job : Job} (row : IsRequestRow env db job) : IsNewRow job := by
  obtain ⟨i, si, -, js, -, -, made⟩ := row
  exact .inr (consensusJob_row made).2.1

theorem evolves_answerRequests (done : answerRequests env db = .ok db') :
    Evolves w IsNewRow db db' := by
  rcases answerRequests_ok done with ⟨-, rfl⟩ | ⟨request, r, reply, u, v, -, -, written, made,
    inserted, rfl⟩
  · exact evolves_finishPending "4" db
  · have first : Evolves w IsNewRow db u := .of_eq (upsertSysinfo_frame written).jobScheduler
    have second : Evolves w IsNewRow u v := by
      refine ⟨keys_insertJob inserted, id, [reply], JobKept.refl, ?_, ?_⟩
      · rw [(insertJob_ok inserted).1, List.map_id]
      · intro job single
        rw [List.mem_singleton.mp single]
        exact .inr (consensusJob_row made).2.1
    exact (first.trans (fun _ => IsNewRow.fixed) second).trans (fun _ => IsNewRow.fixed)
      (evolves_finishPending "4" v)

theorem evolves_afterPromote (h : w.splits = true) (done : (answerRequests env db >>= fun u =>
    takeReplies u >>= fun u => splitJobs env u >>= manageConns) = .ok db') :
    Evolves w IsNewRow db db' := by
  obtain ⟨a, answered, rest⟩ := bind_ok.mp done
  obtain ⟨b, replied, rest⟩ := bind_ok.mp rest
  have last := (finishPass_ok h replied rest).1.mono fun job row => (.inl row.jstate : IsNewRow job)
  exact (evolves_answerRequests answered).trans (fun _ => IsNewRow.fixed) last

theorem runJobs_ok (done : runJobs env db = .ok db') : Evolves ⟨true, true⟩ IsNewRow db db' := by
  obtain ⟨a, promoted, rest⟩ := bind_ok.mp done
  have first := (promote_ok (w := ⟨true, true⟩) rfl promoted).1.mono fun _ => IsRequestRow.new
  exact first.trans (fun _ => IsNewRow.fixed) (evolves_afterPromote rfl rest)

end Statements

theorem storeData_ok {db db' : Db} {id : Uuid} {fd : Int} {data : Bytea}
    (done : db.storeData id fd data = .ok db') :
    OnlyJobs db db' ∧ ∃ job : Job, db'.jobScheduler = db.jobScheduler ++ [job] ∧
      job.jobid = id ∧ job.jobdata = data ∧ job.jsource = intText fd ∧ job.jstate = .N1 := by
  obtain ⟨root, -, -, inserted⟩ := insertUnderRoot_ok done
  obtain ⟨appended, only, -, -⟩ := insertJob_ok inserted
  exact ⟨only, _, appended, rfl, rfl, rfl, rfl⟩

end FileSharing
