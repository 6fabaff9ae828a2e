import FileSharing.Database.Commits

/-! When one pass answers the type 4 requests that it finds in N-4. -/

namespace FileSharing

open Library RunJobs Completion Commits

namespace Requests

section Pass

variable {env : Env} {db a : Db} {rs : List Request} {r : Request} {root : Uuid}

end Pass

/-- A request as `store_data_in_database` stores it. -/
def requestJob (i : Nat) (peer : SelfInfo) : Job :=
  ⟨Uuid.ofNat i, peerData peer (ascii "4"), .N1, ascii "0", ascii "5", Uuid.ofNat 0, ascii "0",
    ascii "5"⟩

def arrived (requests : List Job) : Db :=
  { Db.sampleDb with jobScheduler := Db.sampleDb.jobScheduler ++ requests }

def identified (i : Nat) (peer : SelfInfo) : Job :=
  { requestJob i peer with jstate := .N4, jtype := typeField "4" }

end Requests

end FileSharing
