import FileSharing.Database.Cutting
import FileSharing.Database.Negotiation
import FileSharing.Database.Requests

/-! When a pass of `run_jobs` comes to its end. -/

namespace FileSharing

open Library RunJobs Completion

namespace Commits

def PortsKnown (db : Db) : Prop := ∀ row ∈ openRows (registerConns db), row.2 ≠ none

/-- A pass that raises nothing: in the order of its statements, what the stored messages, names,
capacities and ports must be. -/
structure PassSafe (env : Env) (db : Db) : Prop where
  counts : Repetition.Completes (receive db)
  requests : RequestSafe env db
  answers : ∀ a, promote env db = .ok a → AnswerSafe env a
  replies : ∀ b, (promote env db >>= answerRequests env) = .ok b → ReplySafe b
  splits : ∀ u, beforeSplit env db = .ok u → SplitSafe env u
  ports : ∀ v, (beforeSplit env db >>= splitJobs env) = .ok v → PortsKnown v

section Conns

variable {env : Env} {db u : Db}

theorem succeeds_insertComms {mtype : MType} {rows : List (Int × Option Int)} :
    Succeeds (rows.foldlM (insertComm mtype) db) ↔ ∀ row ∈ rows, row.2 ≠ none := by
  have head (db : Db) (row : Int × Option Int) :
      Succeeds (insertComm mtype db row) ↔ row.2 ≠ none := by
    unfold insertComm
    cases row.2 with
    | none =>
        apply iff_of_false
        · rintro ⟨u, done⟩
          cases done
        · exact fun other => other rfl
    | some port =>
        refine iff_of_true ?_ (Option.some_ne_none port)
        dsimp only
        split
        · exact succeeds_pure _
        · exact succeeds_pure _
  induction rows generalizing db with
  | nil => exact iff_of_true (succeeds_pure db) fun row member => absurd member List.not_mem_nil
  | cons row rest ih =>
      rw [List.foldlM_cons, succeeds_bind, head, List.forall_mem_cons]
      refine and_congr_right fun port => ?_
      obtain ⟨u, done⟩ := (head db row).mpr port
      exact ⟨fun each => ih.mp (each u done), fun each u _ => ih.mpr each⟩

theorem succeeds_manageConns : Succeeds (manageConns db) ↔ PortsKnown db := by
  have closed (u : Db) : Succeeds (closeConns u) := by
    refine succeeds_insertComms.mpr fun row member => ?_
    obtain ⟨sc, -, rfl⟩ := List.mem_map.mp member
    exact Option.some_ne_none sc.sfd
  calc
    Succeeds (manageConns db) ↔ Succeeds (openConns (registerConns db)) := by
      rw [manageConns, succeeds_bind]
      exact and_iff_left fun u _ => closed u
    _ ↔ ∀ row ∈ openRows (registerConns db), row.2 ≠ none := succeeds_insertComms

end Conns

section Pass

variable {env : Env} {db : Db}

/-- A pass comes to its end exactly if no statement of it raises. -/
theorem succeeds_runJobs {root : Uuid} (tree : Tree root db) :
    Succeeds (runJobs env db) ↔ PassSafe env db := by
  have shape : runJobs env db = ((((promote env db >>= answerRequests env) >>= takeReplies) >>=
      splitJobs env) >>= manageConns) := by
    simp only [runJobs, bind_assoc]
  have before : beforeSplit env db =
      ((promote env db >>= answerRequests env) >>= takeReplies) := by
    simp only [beforeSplit, bind_assoc]
  have keys {a : Db} (promoted : promote env db = .ok a) : a.Keys :=
    (promote_ok (w := ⟨true, true⟩) rfl promoted).1.1 tree.keys
  calc
    Succeeds (runJobs env db) ↔ ((((Repetition.Completes (receive db) ∧ RequestSafe env db) ∧
        ∀ a, promote env db = .ok a → AnswerSafe env a) ∧
        ∀ b, (promote env db >>= answerRequests env) = .ok b → ReplySafe b) ∧
        ∀ u, beforeSplit env db = .ok u → SplitSafe env u) ∧
        ∀ v, (beforeSplit env db >>= splitJobs env) = .ok v → PortsKnown v := by
      rw [shape, succeeds_bind, succeeds_bind, succeeds_bind, succeeds_bind,
        succeeds_promote tree.keys, ← before]
      refine and_congr (and_congr (and_congr (and_congr_right' ?_) ?_) ?_) ?_
      · exact forall₂_congr fun a promoted => succeeds_answerRequests (keys promoted)
      · exact forall₂_congr fun b _ => succeeds_takeReplies
      · exact forall₂_congr fun u done => succeeds_splitJobs (tree.beforeSplit done).settled
      · exact forall₂_congr fun v _ => succeeds_manageConns
    _ ↔ PassSafe env db := by
      constructor
      · rintro ⟨⟨⟨⟨⟨counts, requests⟩, answers⟩, replies⟩, splits⟩, ports⟩
        exact ⟨counts, requests, answers, replies, splits, ports⟩
      · intro safe
        exact ⟨⟨⟨⟨⟨safe.counts, safe.requests⟩, safe.answers⟩, safe.replies⟩, safe.splits⟩,
          safe.ports⟩

def PassCommits (db : Db) : Operation → Prop
  | .runJobs env => ∃ db', runJobs env db = .ok db'
  | _ => True

/-- A pass finds nothing that one of its statements raises at. -/
def Safe (db : Db) : Operation → Prop
  | .runJobs env => PassSafe env db
  | _ => True

theorem commits_iff (root : Uuid) (own : SelfInfo) (known : List SysInfo)
    (ops : List Operation) : Guarded Db.perform PassCommits (startDb root own known) ops ↔
      Guarded Db.perform Safe (startDb root own known) ops := by
  apply guarded_same (fun _ _ _ (tree : Tree root _) step => tree.perform step)
  · intro db op tree
    cases op with
    | runJobs env => exact succeeds_runJobs tree
    | importFile | sendFile | updateJobPriority | storeData | retrieve | updateStatus | updateConns
      | updateComms | deleteComms | getcomms | insertConns => exact Iff.rfl
  · exact Tree.start root own known

end Pass

instance (db : Db) : ∀ op, Decidable (PassCommits db op)
  | .runJobs env => inferInstanceAs (Decidable (Succeeds (runJobs env db)))
  | .importFile _ | .sendFile .. | .updateJobPriority .. | .storeData .. | .retrieve ..
    | .updateStatus .. | .updateConns .. | .updateComms _ | .deleteComms _ | .getcomms _
    | .insertConns .. => inferInstanceAs (Decidable True)

def asked (peers : List SelfInfo) : List Operation :=
  (peers.zipIdx 1).map (fun (peer, i) =>
    .storeData (Uuid.ofNat i) 5 (Requests.peerData peer (ascii "4"))) ++ [.runJobs sampleEnv]

/-- The subquery for the capacity reads both requests. -/
theorem two_requests_not_committed : ∃ db,
    run Db.perform (sampleStart []) (asked [Requests.peerM1, Requests.peerM2]) = some db ∧
    ¬ Guarded Db.perform PassCommits (sampleStart [])
      (asked [Requests.peerM1, Requests.peerM2]) := by
  have ends : (run Db.perform (sampleStart [])
      (asked [Requests.peerM1, Requests.peerM2])).isSome = true := by decide +kernel
  obtain ⟨db, done⟩ := Option.isSome_iff_exists.mp ends
  exact ⟨db, done, by decide +kernel⟩

example : Guarded Db.perform PassCommits (sampleStart []) (asked [Requests.peerM1]) := by
  decide +kernel

end Commits

end FileSharing
