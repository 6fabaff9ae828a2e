import FileSharing.Database.Operations
import FileSharing.Library.Lines

/-! The menu of `user_program`: what it reads from `stdin`, and what it does to the database. -/

namespace FileSharing

open Library

namespace Menu

def upbufsize : Nat := 260

/-- A zeroed buffer after `fgets`, up to its first zero byte; at the end of the input `fgets`
takes nothing. -/
def fgets (size : Nat) (stdin : Text) : Option (Text × Text) :=
  if stdin = [] then none
  else
    let (taken, rest) := takeLine 10 (size - 1) stdin
    some (taken.takeWhile (· ≠ 0), rest)

inductive Call where
  | importFile (filePath : Text)
  | sendFile (fileName destination : Text)
  | exportFile (path : Text)
  | showStats
  | showJobsInfo
  | updateJobPriority (jobid jobpriority : Text)
  | showFilesInfo
  deriving DecidableEq

/-- `file_path[pathlen-1] = 0`. With an empty string that is outside of the buffer. -/
def importFile (filePath : Text) : Option Call :=
  if filePath = [] then none else some (.importFile filePath.dropLast)

/-- `if (buf[len-1] == '\n') buf[len-1] = '\0'`. -/
def stripNewline (buf : Text) : Option Text :=
  buf.getLast?.map fun last => if last = 10 then buf.dropLast else buf

def sendFile (fileName destination : Text) : Option Call := do
  let fileName ← stripNewline fileName
  let destination ← stripNewline destination
  return .sendFile fileName destination

/-- `pjobid` has 37 bytes, and `strncpy` does not end a longer id. -/
def updateJobPriority (jobid jobpriority : Text) : Option Call := do
  let jobid ← stripNewline jobid
  let jobpriority ← stripNewline jobpriority
  if jobid.length < 37 then return .updateJobPriority jobid jobpriority else none

/-- One turn of the menu. `undefined` stands for an access outside of a buffer. -/
inductive Turn where
  | closes (rest : Text)
  | calls (call : Call) (rest : Text)
  | invalid (rest : Text)
  | undefined

def Turn.ofCall (rest : Text) : Option Call → Turn
  | some call => .calls call rest
  | none => .undefined

def withInput (stdin : Text) (next : Text → Text → Turn) : Turn :=
  match fgets upbufsize stdin with
  | some (buf, rest) => next buf rest
  | none => .invalid stdin

def choose (choice : Option UInt8) (stdin : Text) : Turn :=
  match choice with
  | some 56 => .closes stdin
  | some 49 => withInput stdin fun buf1 rest => .ofCall rest (importFile buf1)
  | some 50 => withInput stdin fun buf1 rest => withInput rest fun buf2 rest =>
      .ofCall rest (sendFile buf1 buf2)
  | some 51 => withInput stdin fun buf1 rest => .calls (.exportFile buf1) rest
  | some 52 => .calls .showStats stdin
  | some 53 => .calls .showJobsInfo stdin
  | some 54 => withInput stdin fun buf1 rest => withInput rest fun buf2 rest =>
      .ofCall rest (updateJobPriority buf1 buf2)
  | some 55 => .calls .showFilesInfo stdin
  | _ => .invalid stdin

def turn (stdin : Text) : Turn :=
  match fgets 3 stdin with
  | some (choice1, rest) => choose choice1.head? rest
  | none => choose none stdin

/-- What the statements use of the server: `lo_import`, the cast to `uuid`, and the results of
`gen_random_uuid` in order. -/
structure Server where
  disk : Text → Option Bytea
  uuid : Text → Option Uuid
  fresh : Nat → Uuid

/-- The statements of a call, the `i`-th one. A path or an id that the server does not take
raises before anything changes. -/
def Call.operation (server : Server) (i : Nat) : Call → Option Operation
  | .importFile filePath => (server.disk filePath).map fun data => .importFile ⟨filePath, data⟩
  | .sendFile fileName destination => some (.sendFile (server.fresh i) fileName destination)
  | .updateJobPriority jobid jobpriority =>
      (server.uuid jobid).map fun id => .updateJobPriority id jobpriority
  | .exportFile _ | .showStats | .showJobsInfo | .showFilesInfo => none

structure State where
  stdin : Text
  calls : List Call
  db : Db

def State.call (server : Server) (s : State) (call : Call) (rest : Text) : State where
  stdin := rest
  calls := s.calls ++ [call]
  db := ((call.operation server s.calls.length).bind s.db.perform).getD s.db

inductive Outcome where
  | closed (s : State)
  | undefined (s : State)
  | running (s : State)

def userProgram (server : Server) : Nat → State → Outcome
  | 0, s => .running s
  | fuel + 1, s =>
      match turn s.stdin with
      | .closes rest => .closed { s with stdin := rest }
      | .calls call rest => userProgram server fuel (s.call server call rest)
      | .invalid rest => userProgram server fuel { s with stdin := rest }
      | .undefined => .undefined s

def line (t : Text) : Text := t ++ [10]

def Call.typed : Call → Text
  | .importFile filePath => line (ascii "1") ++ line filePath
  | .sendFile fileName destination => line (ascii "2") ++ (line fileName ++ line destination)
  | .exportFile path => line (ascii "3") ++ path
  | .showStats => line (ascii "4")
  | .showJobsInfo => line (ascii "5")
  | .updateJobPriority jobid jobpriority =>
      line (ascii "6") ++ (line jobid ++ line jobpriority)
  | .showFilesInfo => line (ascii "7")

structure Field (t : Text) : Prop where
  line : 10 ∉ t
  string : 0 ∉ t
  short : t.length + 1 < upbufsize

def Call.Fits : Call → Prop
  | .importFile filePath => Field filePath
  | .sendFile fileName destination => Field fileName ∧ Field destination
  | .exportFile path => ∃ t, path = Menu.line t ∧ Field t
  | .updateJobPriority jobid jobpriority => (Field jobid ∧ jobid.length < 37) ∧ Field jobpriority
  | .showStats | .showJobsInfo | .showFilesInfo => True

def operations (server : Server) (start : Nat) (calls : List Call) : List Operation :=
  (calls.zipIdx start).filterMap fun (call, i) => call.operation server i

section Reading

variable {t rest buf : Text} {size : Nat} {server : Server} {s : State}

theorem fgets_line (line : 10 ∉ t) (string : 0 ∉ t) (short : t.length + 1 < size) :
    fgets size (Menu.line t ++ rest) = some (Menu.line t, rest) := by
  have taken : takeLine 10 (size - 1) (t ++ 10 :: rest) = (t ++ [10], rest) :=
    takeLine_fits line (Nat.lt_sub_of_add_lt short)
  have whole : Menu.line t ++ rest = t ++ 10 :: rest := by simp [Menu.line]
  have some : Menu.line t ++ rest ≠ [] := by simp [Menu.line]
  have zero : (t ++ [10]).takeWhile (· ≠ (0 : UInt8)) = t ++ [10] := by
    refine List.takeWhile_eq_self_iff.mpr fun c member => ?_
    rcases List.mem_append.mp member with inside | last
    · exact decide_eq_true fun same => string (same ▸ inside)
    · rw [List.mem_singleton.mp last]
      rfl
  rw [fgets, if_neg some, whole, taken]
  exact congrArg (fun buf => Option.some (buf, rest)) zero

theorem fgets_field (field : Field t) :
    fgets upbufsize (line t ++ rest) = some (line t, rest) :=
  fgets_line field.line field.string field.short

theorem stripNewline_line (t : Text) : stripNewline (line t) = some t := by
  simp [stripNewline, line]

theorem importFile_line (t : Text) : importFile (line t) = some (.importFile t) := by
  simp [importFile, line]

theorem turn_choice (c : UInt8) (other : c ≠ 10 ∧ c ≠ 0) :
    turn (line [c] ++ rest) = choose (some c) rest := by
  have read : fgets 3 (line [c] ++ rest) = some (line [c], rest) :=
    fgets_line (by simpa using other.1.symm) (by simpa using other.2.symm) (by simp)
  rw [turn, read]
  rfl

theorem turn_typed {call : Call} (fits : call.Fits) :
    turn (call.typed ++ rest) = .calls call rest := by
  have start (c : UInt8) (other : c ≠ 10 ∧ c ≠ 0) (fields : Text) :
      turn (line [c] ++ fields ++ rest) = choose (some c) (fields ++ rest) := by
    rw [List.append_assoc, turn_choice c other]
  cases call with
  | importFile filePath =>
      calc
        turn (line (ascii "1") ++ line filePath ++ rest) =
            choose (some 49) (line filePath ++ rest) := start 49 (by decide) _
        _ = .calls (.importFile filePath) rest := by
            simp only [choose, withInput, fgets_field fits, importFile_line]
            rfl
  | sendFile fileName destination =>
      calc
        turn (line (ascii "2") ++ (line fileName ++ line destination) ++ rest) =
            choose (some 50) (line fileName ++ line destination ++ rest) := start 50 (by decide) _
        _ = .calls (.sendFile fileName destination) rest := by
            simp only [choose, withInput, List.append_assoc, fgets_field fits.1,
              fgets_field fits.2, sendFile, stripNewline_line]
            rfl
  | exportFile path =>
      obtain ⟨t, rfl, field⟩ := fits
      calc
        turn (line (ascii "3") ++ line t ++ rest) = choose (some 51) (line t ++ rest) :=
          start 51 (by decide) _
        _ = .calls (.exportFile (line t)) rest := by
            simp only [choose, withInput, fgets_field field]
  | showStats => exact turn_choice 52 (by decide)
  | showJobsInfo => exact turn_choice 53 (by decide)
  | updateJobPriority jobid jobpriority =>
      obtain ⟨⟨id, short⟩, priority⟩ := fits
      calc
        turn (line (ascii "6") ++ (line jobid ++ line jobpriority) ++ rest) =
            choose (some 54) (line jobid ++ line jobpriority ++ rest) := start 54 (by decide) _
        _ = .calls (.updateJobPriority jobid jobpriority) rest := by
            simp only [choose, withInput, List.append_assoc, fgets_field id, fgets_field priority,
              updateJobPriority, stripNewline_line]
            simp [short, Turn.ofCall]
  | showFilesInfo => exact turn_choice 55 (by decide)

/-- A path that does not fit: its first bytes but the last one are imported, and what is left of
the line is read as choices. -/
theorem turn_overlong (line : 10 ∉ t) (string : 0 ∉ t) (long : upbufsize ≤ t.length + 1) :
    turn (Menu.line (ascii "1") ++ (Menu.line t ++ rest)) =
      .calls (.importFile (t.take 258)) (t.drop 259 ++ 10 :: rest) := by
  have full : 259 ≤ t.length := Nat.le_of_succ_le_succ long
  have whole : Menu.line t ++ rest = t ++ 10 :: rest := by simp [Menu.line]
  have read : fgets upbufsize (Menu.line t ++ rest) = some (t.take 259, t.drop 259 ++ 10 :: rest) := by
    have some : Menu.line t ++ rest ≠ [] := by simp [Menu.line]
    have taken : takeLine 10 (upbufsize - 1) (t ++ 10 :: rest) =
        (t.take 259, t.drop 259 ++ 10 :: rest) := takeLine_full line full
    have zero : (t.take 259).takeWhile (· ≠ (0 : UInt8)) = t.take 259 := by
      refine List.takeWhile_eq_self_iff.mpr fun c member => decide_eq_true fun same => ?_
      exact string (same ▸ List.mem_of_mem_take member)
    rw [fgets, if_neg some, whole, taken]
    exact congrArg (fun buf => Option.some (buf, t.drop 259 ++ 10 :: rest)) zero
  have name : importFile (t.take 259) = some (.importFile (t.take 258)) := by
    have some : t.take 259 ≠ [] := by
      refine List.ne_nil_of_length_pos ?_
      rw [List.length_take]
      omega
    have first : (t.take 259).dropLast = t.take 258 := by
      rw [List.dropLast_eq_take, List.length_take, Nat.min_eq_left full, List.take_take]
      rfl
    rw [importFile, if_neg some, first]
  calc
    turn (Menu.line (ascii "1") ++ (Menu.line t ++ rest)) =
        choose (some 49) (Menu.line t ++ rest) := turn_choice 49 (by decide)
    _ = .calls (.importFile (t.take 258)) (t.drop 259 ++ 10 :: rest) := by
        simp only [choose, withInput, read, name]
        rfl

end Reading

section Sessions

variable {server : Server} {s : State}

theorem operation_performs (server : Server) (db : Db) (i : Nat) (call : Call) :
    ∃ db', run Db.perform db (call.operation server i).toList = some db' ∧
      ((call.operation server i).bind db.perform).getD db = db' := by
  have total {op : Operation} (found : call.operation server i = some op) :
      ∃ db', db.perform op = some db' := by
    cases call with
    | importFile filePath =>
        obtain ⟨data, -, rfl⟩ := Option.map_eq_some_iff.mp found
        exact ⟨_, rfl⟩
    | sendFile fileName destination =>
        obtain rfl := Option.some.inj found
        exact ⟨_, rfl⟩
    | updateJobPriority jobid jobpriority =>
        obtain ⟨id, -, rfl⟩ := Option.map_eq_some_iff.mp found
        exact ⟨_, rfl⟩
    | exportFile path => cases found
    | showStats => cases found
    | showJobsInfo => cases found
    | showFilesInfo => cases found
  cases found : call.operation server i with
  | none => exact ⟨db, rfl, rfl⟩
  | some op =>
      obtain ⟨db', moved⟩ := total found
      refine ⟨db', run_cons.mpr ⟨db', moved, rfl⟩, ?_⟩
      rw [Option.bind_some, moved, Option.getD_some]

theorem operations_cons (server : Server) (i : Nat) (call : Call) (calls : List Call) :
    operations server i (call :: calls) =
      (call.operation server i).toList ++ operations server (i + 1) calls := by
  cases found : call.operation server i with
  | none => simp [operations, List.zipIdx_cons, found]
  | some op => simp [operations, List.zipIdx_cons, found]

theorem session_from {calls : List Call} {rest : Text} {fuel : Nat}
    (fits : ∀ call ∈ calls, call.Fits) (enough : calls.length < fuel)
    (typed : s.stdin = calls.flatMap Call.typed ++ (line (ascii "8") ++ rest)) :
    ∃ db', run Db.perform s.db (operations server s.calls.length calls) = some db' ∧
      userProgram server fuel s = .closed ⟨rest, s.calls ++ calls, db'⟩ := by
  induction calls generalizing s fuel with
  | nil =>
      obtain ⟨fuel, rfl⟩ := Nat.exists_eq_succ_of_ne_zero (Nat.ne_of_gt enough)
      have last : turn s.stdin = .closes rest := by
        rw [typed]
        exact turn_choice 56 (by decide)
      refine ⟨s.db, rfl, ?_⟩
      rw [userProgram, last, List.append_nil]
  | cons call calls ih =>
      obtain ⟨fuel, rfl⟩ := Nat.exists_eq_succ_of_ne_zero (Nat.ne_of_gt (Nat.zero_lt_of_lt enough))
      have first : turn s.stdin =
          .calls call (calls.flatMap Call.typed ++ (line (ascii "8") ++ rest)) := by
        rw [typed, List.flatMap_cons, List.append_assoc]
        exact turn_typed (fits call List.mem_cons_self)
      obtain ⟨db, done, moved⟩ := operation_performs server s.db s.calls.length call
      let t := s.call server call (calls.flatMap Call.typed ++ (line (ascii "8") ++ rest))
      have count : t.calls.length = s.calls.length + 1 := List.length_append
      have same : t.db = db := moved
      obtain ⟨db', later, closed⟩ := ih (s := t) (fun other inside =>
        fits other (List.mem_cons_of_mem call inside)) (Nat.lt_of_succ_lt_succ enough) rfl
      refine ⟨db', ?_, ?_⟩
      · rw [operations_cons, run_append]
        rw [count, same] at later
        exact ⟨db, done, later⟩
      · rw [userProgram, first]
        refine closed.trans ?_
        simp only [t, State.call, List.append_assoc, List.singleton_append]

theorem length_fgets {size : Nat} {stdin buf rest : Text} (wide : 1 < size)
    (read : fgets size stdin = some (buf, rest)) : rest.length < stdin.length := by
  unfold fgets at read
  split at read
  · cases read
  · next some =>
      obtain ⟨-, rfl⟩ := Prod.mk.inj (Option.some.inj read)
      exact takeLine_shortens (Nat.sub_pos_of_lt wide) some

def Turn.Leaves (n : Nat) : Turn → Prop
  | .calls _ rest => rest.length ≤ n
  | .invalid rest => rest.length ≤ n
  | .closes _ => True
  | .undefined => True

theorem leaves_ofCall {n : Nat} {rest : Text} (call : Option Call) (short : rest.length ≤ n) :
    (Turn.ofCall rest call).Leaves n := by
  cases call with
  | none => trivial
  | some call => exact short

theorem leaves_withInput {n : Nat} {stdin : Text} {next : Text → Text → Turn}
    (short : stdin.length ≤ n) (each : ∀ buf rest, rest.length ≤ n → (next buf rest).Leaves n) :
    (withInput stdin next).Leaves n := by
  unfold withInput
  split
  · next buf rest read =>
      exact each buf rest (Nat.le_of_lt (Nat.lt_of_lt_of_le (length_fgets (by decide) read) short))
  · exact short

theorem leaves_choose {n : Nat} {stdin : Text} (choice : Option UInt8) (short : stdin.length ≤ n) :
    (choose choice stdin).Leaves n := by
  unfold choose
  split
  · trivial
  · exact leaves_withInput short fun buf rest left => leaves_ofCall _ left
  · exact leaves_withInput short fun buf rest left =>
      leaves_withInput left fun buf' rest' left' => leaves_ofCall _ left'
  · exact leaves_withInput short fun buf rest left => left
  · exact short
  · exact short
  · exact leaves_withInput short fun buf rest left =>
      leaves_withInput left fun buf' rest' left' => leaves_ofCall _ left'
  · exact short
  · exact short

theorem leaves_turn {n : Nat} {stdin : Text} (length : stdin.length = n + 1) :
    (turn stdin).Leaves n := by
  unfold turn
  split
  · next choice rest read =>
      have shorter := length_fgets (by decide) read
      exact leaves_choose _ (by omega)
  · next none =>
      have some : stdin ≠ [] := List.ne_nil_of_length_eq_add_one length
      rw [fgets, if_neg some] at none
      cases none

/-- At the end of the input the loop goes on for ever. -/
theorem spins (server : Server) (s : State) (none : s.stdin = []) (fuel : Nat) :
    userProgram server fuel s = .running s := by
  induction fuel with
  | zero => rfl
  | succ fuel ih =>
      have invalid : turn s.stdin = .invalid s.stdin := by
        rw [none]
        rfl
      rw [userProgram, invalid]
      exact ih

def Ends (server : Server) (n : Nat) (s t : State) : Prop :=
  (∀ fuel, n < fuel → userProgram server fuel s = .closed t) ∨
    (∀ fuel, n < fuel → userProgram server fuel s = .undefined t) ∨
    (t.stdin = [] ∧ ∀ fuel, n ≤ fuel → userProgram server fuel s = .running t)

theorem Ends.before {n : Nat} {s u t : State} (ends : Ends server n u t)
    (moves : ∀ fuel, userProgram server (fuel + 1) s = userProgram server fuel u) :
    Ends server (n + 1) s t := by
  have later {m fuel : Nat} (enough : m + 1 ≤ fuel) : ∃ rest, fuel = rest + 1 ∧ m ≤ rest :=
    ⟨fuel - 1, by omega, by omega⟩
  rcases ends with closed | undefined | ⟨none, running⟩
  · refine .inl fun fuel enough => ?_
    obtain ⟨rest, rfl, more⟩ := later (Nat.succ_le_of_lt enough)
    rw [moves, closed rest more]
  · refine .inr (.inl fun fuel enough => ?_)
    obtain ⟨rest, rfl, more⟩ := later (Nat.succ_le_of_lt enough)
    rw [moves, undefined rest more]
  · refine .inr (.inr ⟨none, fun fuel enough => ?_⟩)
    obtain ⟨rest, rfl, more⟩ := later enough
    rw [moves, running rest more]

theorem ends_within (n : Nat) (s : State) (short : s.stdin.length ≤ n) :
    ∃ t, Ends server n s t := by
  induction n generalizing s with
  | zero =>
      have none : s.stdin = [] := List.length_eq_zero_iff.mp (Nat.le_zero.mp short)
      exact ⟨s, .inr (.inr ⟨none, fun fuel _ => spins server s none fuel⟩)⟩
  | succ n ih =>
      by_cases none : s.stdin = []
      · exact ⟨s, .inr (.inr ⟨none, fun fuel _ => spins server s none fuel⟩)⟩
      · obtain ⟨m, length⟩ := Nat.exists_eq_succ_of_ne_zero fun zero =>
          none (List.length_eq_zero_iff.mp zero)
        have leaves : (turn s.stdin).Leaves m := leaves_turn length
        have least : m ≤ n := by omega
        cases next : turn s.stdin with
        | closes rest =>
            refine ⟨{ s with stdin := rest }, .inl fun fuel enough => ?_⟩
            obtain ⟨more, rfl⟩ := Nat.exists_eq_succ_of_ne_zero (Nat.ne_of_gt (Nat.zero_lt_of_lt enough))
            rw [userProgram, next]
        | undefined =>
            refine ⟨s, .inr (.inl fun fuel enough => ?_)⟩
            obtain ⟨more, rfl⟩ := Nat.exists_eq_succ_of_ne_zero (Nat.ne_of_gt (Nat.zero_lt_of_lt enough))
            rw [userProgram, next]
        | calls call rest =>
            rw [next] at leaves
            obtain ⟨t, ends⟩ := ih (s.call server call rest) (Nat.le_trans leaves least)
            exact ⟨t, ends.before fun fuel => by rw [userProgram, next]⟩
        | invalid rest =>
            rw [next] at leaves
            obtain ⟨t, ends⟩ := ih { s with stdin := rest } (Nat.le_trans leaves least)
            exact ⟨t, ends.before fun fuel => by rw [userProgram, next]⟩

end Sessions

/-- A session: what a user types for some calls, and then 8, makes the program perform exactly
these calls, in order, and end. -/
theorem session_performed (server : Server) {calls : List Call} (db : Db) (rest : Text) {fuel : Nat}
    (fits : ∀ call ∈ calls, call.Fits) (enough : calls.length < fuel) :
    ∃ db', run Db.perform db (operations server 0 calls) = some db' ∧
      userProgram server fuel ⟨calls.flatMap Call.typed ++ (line (ascii "8") ++ rest), [], db⟩ =
        .closed ⟨rest, calls, db'⟩ := by
  obtain ⟨db', done, closed⟩ := session_from (s := ⟨_, [], db⟩) fits enough rfl
  exact ⟨db', done, closed⟩

section Samples

def sampleServer : Server where
  disk path := if path = ascii "/f" then some [7, 8, 9] else none
  uuid t := (uuidIn t).toOption
  fresh i := Uuid.ofNat (50 + i)

def sampleCalls : List Call :=
  [.importFile (ascii "/f"), .showFilesInfo, .sendFile (ascii "/f") (ascii "M1"),
    .updateJobPriority (Uuid.ofNat 52).text (ascii "9"), .showJobsInfo]

theorem sample_session : ∃ db', run Db.perform Db.sampleDb (operations sampleServer 0 sampleCalls) =
      some db' ∧
    userProgram sampleServer 6
      ⟨sampleCalls.flatMap Call.typed ++ (line (ascii "8") ++ []), [], Db.sampleDb⟩ =
        .closed ⟨[], sampleCalls, db'⟩ := by
  have field {t : Text} (known : 10 ∉ t ∧ 0 ∉ t ∧ t.length + 1 < upbufsize) : Field t :=
    ⟨known.1, known.2.1, known.2.2⟩
  have path : Field (ascii "/f") := field (by decide)
  have destination : Field (ascii "M1") := field (by decide)
  have id : Field (Uuid.ofNat 52).text := field (by decide)
  have priority : Field (ascii "9") := field (by decide)
  refine session_performed sampleServer Db.sampleDb [] (fun call member => ?_) (by decide)
  simp only [sampleCalls, List.mem_cons, List.not_mem_nil, or_false] at member
  rcases member with rfl | rfl | rfl | rfl | rfl
  · exact path
  · trivial
  · exact ⟨path, destination⟩
  · exact ⟨⟨id, by decide⟩, priority⟩
  · trivial

end Samples

/-- On every input the program ends, or leaves a buffer, or reads all of the input and then goes
on for ever; the input has at least one byte for each turn before that. -/
theorem ends_or_spins (server : Server) (s : State) : ∃ t, Ends server s.stdin.length s t :=
  ends_within s.stdin.length s (Nat.le_refl _)

end Menu

end FileSharing
