import FileSharing.Database.Evolution

/-! The jobs in S-2W and their children: the count that completes a parent, and the family
tree that the counts rest on. -/

namespace FileSharing

open Library RunJobs

namespace Completion

def isInfo (job : Job) : Bool := messageType job.jobdata = typeField "3"

def childrenOf (jobs : List Job) (parent : Uuid) : List Job :=
  jobs.filter fun job => job.jparentJobid = parent

/-- The children are one message of type 3 and as many others as it counts. -/
structure SplitInto (children : List Job) (info : Job) (count : Int) : Prop where
  parsed : chunkCount info.jobdata = .ok count
  length : (children.length : Int) = count + 1
  infos : children.filter isInfo = [info]
  fixed : ∀ child ∈ children, Fixed child.jstate

section Complete

variable {db : Db} {parent : Uuid} {info : Job} {count : Int}

theorem mem_childrenOf {jobs : List Job} {job : Job} :
    job ∈ childrenOf jobs parent ↔ job ∈ jobs ∧ job.jparentJobid = parent := by
  simp [childrenOf]

theorem SplitInto.info_mem {children : List Job} (split : SplitInto children info count) :
    info ∈ children ∧ isInfo info = true := by
  have member : info ∈ children.filter isInfo := split.infos ▸ List.mem_singleton.mpr rfl
  exact List.mem_filter.mp member

theorem groupCount_eq (split : SplitInto (childrenOf db.jobScheduler parent) info count) :
    groupCount db info = completedChildren db parent := by
  obtain ⟨member, type⟩ := split.info_mem
  have mine := (mem_childrenOf.mp member).2
  have one : (db.jobScheduler.filter fun js =>
      js.jparentJobid = info.jparentJobid && js.jobdata = info.jobdata) = [info] := by
    calc
      (db.jobScheduler.filter fun js =>
          js.jparentJobid = info.jparentJobid && js.jobdata = info.jobdata) =
          (childrenOf db.jobScheduler parent).filter fun js => js.jobdata = info.jobdata := by
        rw [childrenOf, List.filter_filter, mine]
        exact List.filter_congr fun job _ => Bool.and_comm _ _
      _ = ((childrenOf db.jobScheduler parent).filter isInfo).filter
          fun js => js.jobdata = info.jobdata := by
        rw [List.filter_filter]
        refine List.filter_congr fun job _ => ?_
        by_cases same : job.jobdata = info.jobdata
        · have also : isInfo job = true := by rwa [isInfo, same]
          simp [same, also]
        · simp [same]
      _ = [info] := by simp [split.infos]
  rw [groupCount, one, mine, List.length_singleton, Nat.one_mul]

theorem completedChildren_eq (db : Db) (parent : Uuid) : completedChildren db parent =
    ((childrenOf db.jobScheduler parent).filter fun job => job.jstate = .C).length := by
  rw [completedChildren, childrenOf, List.filter_filter]
  congr 1
  exact List.filter_congr fun job _ => Bool.and_comm _ _

/-- The subquery has the parent exactly if all children are in C. -/
theorem completes_iff {parents : List Uuid}
    (split : SplitInto (childrenOf db.jobScheduler parent) info count)
    (done : completedParents db = .ok parents) :
    parent ∈ parents ↔ ∀ child ∈ childrenOf db.jobScheduler parent, child.jstate = .C := by
  obtain ⟨member, type⟩ := split.info_mem
  have mine := (mem_childrenOf.mp member).2
  have counted : count + 1 = groupCount db info ↔
      ∀ child ∈ childrenOf db.jobScheduler parent, child.jstate = .C := by
    rw [groupCount_eq split, completedChildren_eq, ← split.length, Nat.cast_inj, eq_comm,
      List.length_filter_eq_length_iff]
    simp
  unfold completedParents at done
  obtain ⟨groups, built, rest⟩ := bind_ok.mp done
  rw [← pure_ok.mp rest, ← counted]
  have each := mapM_ok.mp built
  simp only [bind_ok, pure_ok] at each
  constructor
  · intro listed
    obtain ⟨group, inside, same⟩ := List.mem_map.mp listed
    obtain ⟨present, holds⟩ := List.mem_filter.mp inside
    obtain ⟨js1, found, chunks, parsed, total, sum, rfl⟩ := forall₂_mem_right each present
    obtain ⟨row, test⟩ := List.mem_filter.mp found
    simp only [Bool.and_eq_true] at test
    have only : js1 ∈ (childrenOf db.jobScheduler parent).filter isInfo :=
      List.mem_filter.mpr ⟨mem_childrenOf.mpr ⟨row, same⟩, test.1⟩
    rw [split.infos, List.mem_singleton] at only
    subst only
    rw [split.parsed] at parsed
    rw [Except.ok.inj parsed, ← (int4_ok sum).1]
    simpa using holds
  · intro total
    have completed : completedChildren db parent ≠ 0 := by
      rw [groupCount_eq split] at total
      have positive := split.length
      have some : 0 < (childrenOf db.jobScheduler parent).length := List.length_pos_of_mem member
      omega
    have found : info ∈ infoMessages db := by
      refine List.mem_filter.mpr ⟨(mem_childrenOf.mp member).1, ?_⟩
      simp only [mine, Bool.and_eq_true]
      exact ⟨type, by simpa using completed⟩
    obtain ⟨group, inside, chunks, parsed, sum, range, rfl⟩ := forall₂_mem_left each found
    rw [split.parsed] at parsed
    refine List.mem_map.mpr ⟨_, List.mem_filter.mpr ⟨inside, ?_⟩, mine⟩
    rw [(int4_ok range).1, ← Except.ok.inj parsed]
    simpa using total

end Complete

/-- The states of a job that has no children yet. -/
def Early (s : JState) : Prop := s ∈ [.N1, .N2, .N3, .N4, .S, .S1]

/-- The states between the statements of one pass only. -/
def Transient (s : JState) : Prop := s = .S2 ∨ s = .S3

instance (s : JState) : Decidable (Early s) := inferInstanceAs (Decidable (_ ∈ _))
instance (s : JState) : Decidable (Transient s) := inferInstanceAs (Decidable (_ ∨ _))

def Settled (s : JState) : Prop := ¬ Early s ∧ ¬ Transient s ∧ s ≠ .S2W

instance (s : JState) : Decidable (Settled s) := inferInstanceAs (Decidable (_ ∧ _ ∧ _))

/-- The family tree: new jobs hang under the root, and the children of a job in S-2W are
the messages it was split into. -/
structure Family (root : Uuid) (db : Db) : Prop where
  keys : db.Keys
  rooted : root ∈ db.jobids
  rootState : ∀ job ∈ db.jobScheduler, job.jobid = root → Settled job.jstate
  self : ∀ job ∈ db.jobScheduler, job.jparentJobid = job.jobid → job.jobid = root
  early : ∀ job ∈ db.jobScheduler, Early job.jstate →
    job.jparentJobid = root ∧ childrenOf db.jobScheduler job.jobid = []
  waiting : ∀ job ∈ db.jobScheduler, job.jstate = .S2W →
    ∃ info count, SplitInto (childrenOf db.jobScheduler job.jobid) info count
  settled : ∀ job ∈ db.jobScheduler, ¬ Transient job.jstate

structure Calm (s t : JState) : Prop where
  early : Early t → Early s
  waiting : t = .S2W → s = .S2W
  settled : Settled s → Settled t
  transient : Transient t → Transient s
  fixed : Fixed s → Fixed t

theorem Calm.refl (s : JState) : Calm s s := ⟨id, id, id, id, id⟩

theorem Calm.trans {a b c : JState} (first : Calm a b) (second : Calm b c) : Calm a c :=
  ⟨first.early ∘ second.early, first.waiting ∘ second.waiting, second.settled ∘ first.settled,
    first.transient ∘ second.transient, second.fixed ∘ first.fixed⟩

theorem Calm.final {s t : JState} (settled : Settled t) (fixed : Fixed t) : Calm s t :=
  ⟨fun h => absurd h settled.1, fun h => absurd h settled.2.2, fun _ => settled,
    fun h => absurd h settled.2.1, fun _ => fixed⟩

theorem Calm.promote {w : Scope} {s t : JState} (calm : w.splits = false) (step : Promote w s t) :
    Calm s t := by
  have off : ¬ w.splits = true := by simp [calm]
  cases step with
  | split h => exact absurd h off
  | single h => exact absurd h off
  | awaitSplit h => exact absurd h off
  | awaitSingle h => exact absurd h off
  | reject => exact .final (by decide) fixed_d
  | answer => exact .final (by decide) fixed_c
  | completeSplit => exact .final (by decide) fixed_c
  | completeSingle => exact .final (by decide) fixed_c
  | accept => exact ⟨fun _ => by decide, nofun, fun h => absurd h (by decide),
      fun h => absurd h (by decide), fun h => absurd Promote.accept (h w _)⟩
  | arrive => exact ⟨fun _ => by decide, nofun, fun h => absurd h (by decide),
      fun h => absurd h (by decide), fun h => absurd Promote.arrive (h w _)⟩
  | forward => exact ⟨fun _ => by decide, nofun, fun h => absurd h (by decide),
      fun h => absurd h (by decide), fun h => absurd Promote.forward (h w _)⟩
  | identify => exact ⟨fun _ => by decide, nofun, fun h => absurd h (by decide),
      fun h => absurd h (by decide), fun h => absurd Promote.identify (h w _)⟩
  | start => exact ⟨fun _ => by decide, nofun, fun h => absurd h (by decide),
      fun h => absurd h (by decide), fun h => absurd Promote.start (h w _)⟩

theorem Calm.promotes {w : Scope} {s t : JState} (calm : w.splits = false)
    (steps : Promotes w s t) : Calm s t := by
  induction steps with
  | refl => exact .refl s
  | tail _ step ih => exact ih.trans (.promote calm step)

section Family

variable {root : Uuid} {db db' : Db}

theorem childrenOf_map {jobs : List Job} {change : Job → Job}
    (same : ∀ job, (change job).jparentJobid = job.jparentJobid) (parent : Uuid) :
    childrenOf (jobs.map change) parent = (childrenOf jobs parent).map change := by
  rw [childrenOf, List.filter_map, childrenOf]
  congr 1
  refine List.filter_congr fun job _ => ?_
  simp [same]

theorem SplitInto.map {children : List Job} {info : Job} {count : Int} {change : Job → Job}
    (split : SplitInto children info count) (data : ∀ job, (change job).jobdata = job.jobdata)
    (calm : ∀ job ∈ children, Calm job.jstate (change job).jstate) :
    SplitInto (children.map change) (change info) count := by
  constructor
  · rw [data]
    exact split.parsed
  · rw [List.length_map]
    exact split.length
  · rw [List.filter_map]
    have test : isInfo ∘ change = isInfo := by
      funext job
      simp [isInfo, data]
    rw [test, split.infos, List.map_singleton]
  · intro child member
    obtain ⟨old, inside, rfl⟩ := List.mem_map.mp member
    exact (calm old inside).fixed (split.fixed old inside)

theorem Family.map {change : Job → Job} (family : Family root db)
    (rows : db'.jobScheduler = db.jobScheduler.map change)
    (ids : ∀ job, (change job).jobid = job.jobid ∧ (change job).jparentJobid = job.jparentJobid)
    (data : ∀ job, (change job).jobdata = job.jobdata)
    (calm : ∀ job ∈ db.jobScheduler, Calm job.jstate (change job).jstate) : Family root db' := by
  have parents (job : Job) := (ids job).2
  constructor
  · exact keys_map rows ids family.keys
  · have same : db'.jobids = db.jobids := by
      rw [Db.jobids, rows, List.map_map, Db.jobids]
      exact List.map_congr_left fun job _ => (ids job).1
    exact same ▸ family.rooted
  · intro job member top
    rw [rows] at member
    obtain ⟨old, inside, rfl⟩ := List.mem_map.mp member
    exact (calm old inside).settled (family.rootState old inside ((ids old).1 ▸ top))
  · intro job member same
    rw [rows] at member
    obtain ⟨old, inside, rfl⟩ := List.mem_map.mp member
    rw [(ids old).1, (ids old).2] at same
    exact (ids old).1.trans (family.self old inside same)
  · intro job member early
    rw [rows] at member
    obtain ⟨old, inside, rfl⟩ := List.mem_map.mp member
    obtain ⟨top, none⟩ := family.early old inside ((calm old inside).early early)
    rw [rows, (ids old).1, (ids old).2, childrenOf_map parents, none]
    exact ⟨top, rfl⟩
  · intro job member waits
    rw [rows] at member
    obtain ⟨old, inside, rfl⟩ := List.mem_map.mp member
    obtain ⟨info, count, split⟩ := family.waiting old inside ((calm old inside).waiting waits)
    rw [rows, (ids old).1, childrenOf_map parents]
    exact ⟨change info, count, split.map data fun child present =>
      calm child (mem_childrenOf.mp present).1⟩
  · intro job member transient
    rw [rows] at member
    obtain ⟨old, inside, rfl⟩ := List.mem_map.mp member
    exact family.settled old inside ((calm old inside).transient transient)

theorem childrenOf_append (jobs fresh : List Job) (parent : Uuid) :
    childrenOf (jobs ++ fresh) parent = childrenOf jobs parent ++ childrenOf fresh parent := by
  simp [childrenOf]

theorem childrenOf_none {fresh : List Job} {parent : Uuid}
    (other : ∀ job ∈ fresh, job.jparentJobid ≠ parent) : childrenOf fresh parent = [] := by
  refine List.filter_eq_nil_iff.mpr fun job member => ?_
  simpa using other job member

theorem Family.append {fresh : List Job} (family : Family root db) (keys : db'.Keys)
    (rows : db'.jobScheduler = db.jobScheduler ++ fresh)
    (each : ∀ job ∈ fresh, job.jparentJobid = root ∧ job.jstate ≠ .S2W ∧ ¬ Transient job.jstate) :
    Family root db' := by
  have ids : db'.jobids = db.jobids ++ fresh.map Job.jobid := by
    rw [Db.jobids, rows, List.map_append, Db.jobids]
  have apart (job : Job) (member : job ∈ fresh) : job.jobid ∉ db.jobids := by
    intro known
    have nodup := keys.jobids
    rw [ids] at nodup
    exact (List.nodup_append.mp nodup).2.2 _ known _ (List.mem_map_of_mem member) rfl
  have below (job : Job) (member : job ∈ db.jobScheduler) (low : ¬ Settled job.jstate) :
      childrenOf fresh job.jobid = [] := by
    refine childrenOf_none fun row inside same => low ?_
    exact family.rootState job member (same.symm.trans (each row inside).1)
  constructor
  · exact keys
  · rw [ids]
    exact List.mem_append_left _ family.rooted
  · intro job member top
    rw [rows] at member
    rcases List.mem_append.mp member with old | new
    · exact family.rootState job old top
    · exact absurd family.rooted (top ▸ apart job new)
  · intro job member same
    rw [rows] at member
    rcases List.mem_append.mp member with old | new
    · exact family.self job old same
    · exact same.symm.trans (each job new).1
  · intro job member early
    rw [rows] at member
    rw [rows, childrenOf_append]
    rcases List.mem_append.mp member with old | new
    · obtain ⟨top, none⟩ := family.early job old early
      rw [none, below job old fun settled => settled.1 early]
      exact ⟨top, rfl⟩
    · have first : childrenOf db.jobScheduler job.jobid = [] := childrenOf_none fun row inside same =>
        apart job new (same ▸ family.keys.parents row inside)
      have second : childrenOf fresh job.jobid = [] := childrenOf_none fun row inside same =>
        apart job new (same ▸ (each row inside).1 ▸ family.rooted)
      rw [first, second]
      exact ⟨(each job new).1, rfl⟩
  · intro job member waits
    rw [rows] at member
    rcases List.mem_append.mp member with old | new
    · rw [rows, childrenOf_append, below job old fun settled => settled.2.2 waits, List.append_nil]
      exact family.waiting job old waits
    · exact absurd waits (each job new).2.1
  · intro job member
    rw [rows] at member
    rcases List.mem_append.mp member with old | new
    · exact family.settled job old
    · exact (each job new).2.2

theorem Family.evolves {w : Scope} {made : Job → Prop} (calm : w.splits = false)
    (family : Family root db) (evolves : Evolves w made db db')
    (each : ∀ job, made job → job.jparentJobid = root ∧ Fixed job.jstate ∧
      ¬ Transient job.jstate ∧ job.jstate ≠ .S2W) : Family root db' := by
  obtain ⟨keys, change, fresh, kept, rows, built⟩ := evolves
  let mid : Db := { db with jobScheduler := db.jobScheduler.map change }
  have first : Family root mid := family.map rfl
    (fun job => ⟨(kept job).jobid, (kept job).jparentJobid⟩) (fun job => (kept job).jobdata)
    fun job _ => .promotes calm (kept job).jstate
  refine first.append (keys family.keys) rows fun job member => ?_
  obtain ⟨top, -, settled, other⟩ := each job (built job member)
  exact ⟨top, other, settled⟩

end Family

end Completion

end FileSharing
