import FileSharing.Database.Consensus
import FileSharing.Database.Made

/-! When a message is made, and when the rows of a statement are inserted. -/

namespace FileSharing

open Library RunJobs Completion

namespace Commits

/-- `lpad(t, 5, ' ')::bytea` does not raise. -/
def Castable (t : Text) : Prop := Succeeds (byteain (lpad t 5))

instance (t : Text) : Decidable (Castable t) := inferInstanceAs (Decidable (Succeeds _))

def Fresh (db : Db) (ids : List Uuid) : Prop := ids.Nodup ∧ ∀ id ∈ ids, id ∉ db.jobids

instance (db : Db) (ids : List Uuid) : Decidable (Fresh db ids) :=
  inferInstanceAs (Decidable (_ ∧ _))

def drawn (env : Env) (statement count : Nat) : List Uuid :=
  (List.range count).map (env.uuid statement)

def Fits (used : Nat) (capacity : Option Int) : Prop :=
  Made.paddedTo used capacity ≤ maxField ∧
    ∀ c ∈ capacity, IsInt4 (c - 32) ∧ IsInt4 (c - used)

section Inserts

variable {env : Env} {db u : Db} {α : Type} {statement : Nat}

theorem fresh_append {ids more : List Uuid} (grown : u.jobids = db.jobids ++ ids) :
    Fresh db (ids ++ more) ↔ Fresh db ids ∧ Fresh u more := by
  unfold Fresh
  rw [grown, List.nodup_append']
  simp only [List.mem_append, List.disjoint_left, not_or]
  constructor
  · rintro ⟨⟨first, second, apart⟩, new⟩
    exact ⟨⟨first, fun id member => new id (.inl member)⟩, second, fun id member =>
      ⟨new id (.inr member), fun old => apart old member⟩⟩
  · rintro ⟨⟨first, new⟩, second, later⟩
    refine ⟨⟨first, second, fun id old member => (later id member).2 old⟩, fun id member => ?_⟩
    cases member with
    | inl old => exact new id old
    | inr young => exact (later id young).1

theorem succeeds_insertJobs {rows : List Job}
    (parents : ∀ job ∈ rows, job.jparentJobid ∈ db.jobids) :
    Succeeds (db.insertJobs rows) ↔ Fresh db (rows.map Job.jobid) := by
  induction rows generalizing db with
  | nil =>
      have none : Fresh db [] := ⟨List.nodup_nil, fun id member => absurd member List.not_mem_nil⟩
      exact iff_of_true ⟨db, rfl⟩ none
  | cons job rest ih =>
      have split : db.insertJobs (job :: rest) = db.insertJob job >>= fun u => u.insertJobs rest :=
        List.foldlM_cons
      have head : Succeeds (db.insertJob job) ↔ Fresh db [job.jobid] := by
        constructor
        · rintro ⟨u, done⟩
          exact ⟨List.nodup_singleton _, fun id member =>
            List.mem_singleton.mp member ▸ (insertJob_ok done).2.2.1⟩
        · exact fun fresh => insertJob_total (fresh.2 _ List.mem_cons_self)
            (parents job List.mem_cons_self)
      have grown (u : Db) (done : db.insertJob job = .ok u) :
          u.jobids = db.jobids ++ [job.jobid] := by
        rw [Db.jobids, (insertJob_ok done).1, List.map_append, List.map_singleton, Db.jobids]
      have tail (u : Db) (done : db.insertJob job = .ok u) :
          Succeeds (u.insertJobs rest) ↔ Fresh u (rest.map Job.jobid) := by
        apply ih
        intro row member
        rw [grown u done]
        exact List.mem_append_left _ (parents row (List.mem_cons_of_mem job member))
      rw [split, succeeds_bind, head]
      constructor
      · rintro ⟨first, later⟩
        obtain ⟨u, done⟩ := head.mpr first
        exact (fresh_append (grown u done)).mpr ⟨first, (tail u done).mp (later u done)⟩
      · intro fresh
        have first : Fresh db [job.jobid] :=
          ⟨List.nodup_singleton _, fun id member => fresh.2 id
            (List.mem_singleton.mp member ▸ List.mem_cons_self)⟩
        exact ⟨first, fun u done => (tail u done).mpr ((fresh_append (grown u done)).mp fresh).2⟩

theorem forall_zipIdx {P : α → Prop} {xs : List α} :
    (∀ pair ∈ xs.zipIdx, P pair.1) ↔ ∀ x ∈ xs, P x := by
  constructor
  · intro each x member
    rw [← List.zipIdx_map_fst 0 xs] at member
    obtain ⟨pair, inside, rfl⟩ := List.mem_map.mp member
    exact each pair inside
  · exact fun each pair member => each pair.1 (mem_zipIdx_left member)

theorem made_ids {f : α × Nat → Sql Job} {xs : List α} {rows : List Job}
    (id : ∀ x ∈ xs, ∀ i job, f (x, i) = .ok job → job.jobid = env.uuid statement i)
    (built : xs.zipIdx.mapM f = .ok rows) :
    rows.map Job.jobid = drawn env statement xs.length := by
  calc
    rows.map Job.jobid = xs.zipIdx.map (fun pair => env.uuid statement pair.2) :=
      forall₂_map_eq (mapM_ok.mp built) fun pair inside job read =>
        id pair.1 (mem_zipIdx_left inside) pair.2 job read
    _ = drawn env statement xs.length := by
      rw [drawn, List.range_eq_range', ← List.zipIdx_map_snd 0 xs, List.map_map]
      rfl

theorem succeeds_insert {f : α × Nat → Sql Job} {xs : List α} {P : α → Prop}
    (makes : ∀ x ∈ xs, ∀ i, Succeeds (f (x, i)) ↔ P x)
    (row : ∀ x ∈ xs, ∀ i job, f (x, i) = .ok job →
      job.jobid = env.uuid statement i ∧ job.jparentJobid ∈ db.jobids) :
    Succeeds (xs.zipIdx.mapM f >>= db.insertJobs) ↔
      (∀ x ∈ xs, P x) ∧ Fresh db (drawn env statement xs.length) := by
  have made : Succeeds (xs.zipIdx.mapM f) ↔ ∀ x ∈ xs, P x := by
    calc
      Succeeds (xs.zipIdx.mapM f) ↔ ∀ pair ∈ xs.zipIdx, Succeeds (f pair) := succeeds_mapM
      _ ↔ ∀ pair ∈ xs.zipIdx, P pair.1 := forall₂_congr fun pair member =>
        makes pair.1 (mem_zipIdx_left member) pair.2
      _ ↔ ∀ x ∈ xs, P x := forall_zipIdx
  have inserted (rows : List Job) (built : xs.zipIdx.mapM f = .ok rows) :
      Succeeds (db.insertJobs rows) ↔ Fresh db (drawn env statement xs.length) := by
    have parents : ∀ job ∈ rows, job.jparentJobid ∈ db.jobids := by
      intro job member
      obtain ⟨pair, inside, read⟩ := forall₂_mem_right (mapM_ok.mp built) member
      exact (row pair.1 (mem_zipIdx_left inside) pair.2 job read).2
    rw [succeeds_insertJobs parents,
      made_ids (fun x member i job read => (row x member i job read).1) built]
  rw [succeeds_bind, made]
  constructor
  · rintro ⟨each, later⟩
    obtain ⟨rows, built⟩ := made.mpr each
    exact ⟨each, (inserted rows built).mp (later rows built)⟩
  · rintro ⟨each, fresh⟩
    exact ⟨each, fun rows built => (inserted rows built).mpr fresh⟩

structure Adds (env : Env) (statement count : Nat) (db u : Db) : Prop where
  only : OnlyJobs db u
  ids : u.jobids = db.jobids ++ drawn env statement count
  rows : ∃ fresh, u.jobScheduler = db.jobScheduler ++ fresh ∧ ∀ job ∈ fresh, job.jstate = .S4
  keys : db.Keys → u.Keys

theorem adds_insert {f : α × Nat → Sql Job} {xs : List α}
    (row : ∀ x ∈ xs, ∀ i job, f (x, i) = .ok job →
      job.jobid = env.uuid statement i ∧ job.jstate = .S4)
    (done : (xs.zipIdx.mapM f >>= db.insertJobs) = .ok u) :
    Adds env statement xs.length db u := by
  obtain ⟨rows, built, inserted⟩ := bind_ok.mp done
  obtain ⟨appended, only⟩ := insertJobs_ok inserted
  refine ⟨only, ?_, ⟨rows, appended, fun job member => ?_⟩, keys_insertJobs inserted⟩
  · rw [Db.jobids, appended, List.map_append,
      made_ids (fun x member i job read => (row x member i job read).1) built, Db.jobids]
  · obtain ⟨pair, inside, read⟩ := forall₂_mem_right (mapM_ok.mp built) member
    exact (row pair.1 (mem_zipIdx_left inside) pair.2 job read).2

end Inserts

section Messages

variable {env : Env} {now : Timestamp} {id : Uuid} {type source destination priority : Text}
  {subheader messaget : Bytea}

theorem succeeds_int4 {n : Int} : Succeeds (int4 n) ↔ IsInt4 n := by
  constructor
  · rintro ⟨m, done⟩
    exact (int4_ok done).2
  · exact fun range => ⟨n, if_pos range⟩

theorem succeeds_loGet {data : Bytea} : Succeeds (loGet data) ↔ data.length ≤ maxField := by
  constructor
  · rintro ⟨read, done⟩
    exact (loGet_ok done).2
  · exact fun small => ⟨data, if_pos small⟩

theorem succeeds_extraPad {length : Nat} {capacity : Option Int} :
    Succeeds (extraPad length capacity) ↔
      ∀ c ∈ capacity, IsInt4 (c - 32) ∧ IsInt4 (c - (32 + length : Nat)) := by
  cases capacity with
  | none => exact iff_of_true ⟨0, rfl⟩ fun c member => by cases member
  | some c =>
      have room : c - 32 - (length : Int) = c - (32 + length : Nat) := by omega
      simp only [extraPad, succeeds_bind, succeeds_int4, Option.mem_some_iff, forall_eq']
      constructor
      · rintro ⟨first, later⟩
        exact ⟨first, room ▸ (later _ (if_pos first)).1⟩
      · rintro ⟨first, second⟩
        refine ⟨first, fun n read => ?_⟩
        rw [(int4_ok read).1, room]
        exact ⟨second, fun pad _ => succeeds_pure _⟩

theorem succeeds_createMessage (cleanType : Clean type) {capacity : Option Int} :
    Succeeds (createMessage now id.text type subheader messaget source destination priority
      capacity) ↔ Castable source ∧ Castable destination ∧ Castable priority ∧
      Fits (114 - headerGap source destination priority + subheader.length + messaget.length)
        capacity := by
  have cast := byteain_clean (cleanType.lpad 5)
  have used {src dst prio : Bytea} (hsrc : byteain (lpad source 5) = .ok src)
      (hdst : byteain (lpad destination 5) = .ok dst)
      (hprio : byteain (lpad priority 5) = .ok prio) :
      114 - headerGap source destination priority + subheader.length + messaget.length =
        32 + (messageBody id.text (lpad type 5) src dst prio now.text
          (subheader ++ messaget)).length := by
    have first := castGap_ok hsrc
    have second := castGap_ok hdst
    have third := castGap_ok hprio
    simp only [messageBody, headerGap, List.length_append, id.length, length_lpad, now.length]
    omega
  have padded (src dst prio : Bytea) (pad : Nat) :
      (messageBody id.text (lpad type 5) src dst prio now.text
        (subheader ++ messaget ++ List.replicate pad 32)).length =
      (messageBody id.text (lpad type 5) src dst prio now.text
        (subheader ++ messaget)).length + pad := by
    simp only [messageBody, List.length_append, List.length_replicate]
    omega
  constructor
  · rintro ⟨message, done⟩
    obtain ⟨ty, src, dst, prio, pad, hty, hsrc, hdst, hprio, room, last⟩ := createMessage_ok done
    obtain rfl := Except.ok.inj (hty.symm.trans cast)
    refine ⟨⟨src, hsrc⟩, ⟨dst, hdst⟩, ⟨prio, hprio⟩, ?_⟩
    rw [used hsrc hdst hprio]
    refine ⟨?_, succeeds_extraPad.mp ⟨pad, room⟩⟩
    have small := (sealMessage_ok last).2
    rwa [padded, Made.extraPad_length room] at small
  · rintro ⟨⟨src, hsrc⟩, ⟨dst, hdst⟩, ⟨prio, hprio⟩, small, range⟩
    rw [used hsrc hdst hprio] at small range
    obtain ⟨pad, room⟩ := succeeds_extraPad.mpr range
    rw [createMessage_of_parts cast hsrc hdst hprio room]
    refine ⟨_, if_pos ?_⟩
    rwa [padded, Made.extraPad_length room]

theorem succeeds_consensusJob {capacity : Int} {own : SelfInfo} {parent : Uuid}
    (cleanType : Clean type) :
    Succeeds (consensusJob env id type capacity own destination parent) ↔
      Castable own.systemName ∧ Castable destination := by
  have five : Castable (ascii "5") := by decide
  have gap := headerGap_le own.systemName destination (ascii "5")
  have fits : Fits (114 - headerGap own.systemName destination (ascii "5") + 33 + 0)
      (some 147) := by
    refine ⟨?_, fun c member => ?_⟩
    · change max _ 147 ≤ 1073741819
      omega
    · obtain rfl := Option.mem_some_iff.mp member
      unfold IsInt4 int4Min int4Max
      omega
  unfold consensusJob
  rw [succeeds_return, succeeds_createMessage cleanType]
  simp only [List.length_append, length_lpad, List.length_nil]
  constructor
  · intro done
    exact ⟨done.1, done.2.1⟩
  · intro names
    exact ⟨names.1, names.2, five, fits⟩

end Messages

end Commits

end FileSharing
