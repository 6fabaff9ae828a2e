import Mathlib.Logic.Function.Basic
import Mathlib.Logic.Relation
import Mathlib.Tactic

/-! Connections that are opened and closed by commands: a table of addresses asks for a
command, another party executes it on its sockets, and the result is recorded. With at most
one command for an address at a time, no socket is lost. -/

namespace FileSharing.Library

variable {ι α φ : Type}

inductive Conn (φ : Type) where
  | unknown
  | closed
  | opened (fd : φ)

inductive Aim (φ : Type) where
  | opens
  | closes (fd : φ)

inductive Stage (φ : Type) where
  | asked
  | issued
  | reported (fd : Option φ)

structure Command (α φ : Type) where
  address : α
  aim : Aim φ
  stage : Stage φ

def Aim.conn : Aim φ → Conn φ
  | .opens => .closed
  | .closes fd => .opened fd

theorem Aim.conn_injective : Function.Injective (Aim.conn : Aim φ → Conn φ) := by
  intro first second same
  cases first with
  | opens =>
      cases second with
      | opens => rfl
      | closes fd => cases same
  | closes fd =>
      cases second with
      | opens => cases same
      | closes fd' => rw [Conn.opened.inj same]

def Conn.ofResult : Option φ → Conn φ
  | some fd => .opened fd
  | none => .closed

structure Table (ι α φ : Type) where
  command : ι → Option (Command α φ)
  conn : α → Conn φ
  socket : φ → Option α

namespace Table

variable {v w : Table ι α φ}

def Idle (v : Table ι α φ) (address : α) : Prop :=
  ∀ id command, v.command id = some command → command.address ≠ address

structure Owned (v : Table ι α φ) : Prop where
  single : ∀ id command id' command', v.command id = some command →
    v.command id' = some command' → command.address = command'.address → id = id'
  agree : ∀ id command, v.command id = some command → v.conn command.address = command.aim.conn
  owner : ∀ fd address, v.socket fd = some address → v.conn address = .opened fd ∨
    ∃ id, v.command id = some ⟨address, .opens, .reported (some fd)⟩
  gone : ∀ id address fd result, v.command id = some ⟨address, .closes fd, .reported result⟩ →
    result = none ∧ ∀ fd', v.socket fd' ≠ some address

theorem Owned.free (owned : Owned v) {id : ι} {address : α} {stage : Stage φ}
    (present : v.command id = some ⟨address, .opens, stage⟩)
    (before : ∀ fd, stage ≠ .reported (some fd)) (fd : φ) : v.socket fd ≠ some address := by
  intro socket
  rcases owned.owner fd address socket with recorded | ⟨id', reported⟩
  · cases recorded.symm.trans (owned.agree id _ present)
  · obtain rfl := owned.single id _ id' _ present reported rfl
    have same := Option.some.inj (present.symm.trans reported)
    exact before fd (congrArg Command.stage same)

theorem Owned.one (owned : Owned v) {fd fd' : φ} {address : α} (first : v.socket fd = some address)
    (second : v.socket fd' = some address) : fd = fd' := by
  rcases owned.owner fd address first with recorded | ⟨id, reported⟩
  · rcases owned.owner fd' address second with recorded' | ⟨id', reported'⟩
    · exact Conn.opened.inj (recorded.symm.trans recorded')
    · cases recorded.symm.trans (owned.agree id' _ reported')
  · rcases owned.owner fd' address second with recorded' | ⟨id', reported'⟩
    · cases recorded'.symm.trans (owned.agree id _ reported)
    · obtain rfl := owned.single id _ id' _ reported reported' rfl
      have same := congrArg Command.stage (Option.some.inj (reported.symm.trans reported'))
      exact Option.some.inj (Stage.reported.inj same)

/-- The commands of `w` are those of `v`, perhaps at another stage. -/
def Covers (v w : Table ι α φ) : Prop :=
  ∀ id command, w.command id = some command →
    ∃ stage, v.command id = some ⟨command.address, command.aim, stage⟩

theorem Owned.single_of_covers (owned : Owned v) (covers : Covers v w) (id : ι)
    (command : Command α φ) (id' : ι) (command' : Command α φ) (first : w.command id = some command)
    (second : w.command id' = some command') (same : command.address = command'.address) :
    id = id' := by
  obtain ⟨stage, before⟩ := covers id command first
  obtain ⟨stage', before'⟩ := covers id' command' second
  exact owned.single id _ id' _ before before' same

theorem Owned.agree_of_covers (owned : Owned v) (covers : Covers v w) (conn : w.conn = v.conn)
    (id : ι) (command : Command α φ) (present : w.command id = some command) :
    w.conn command.address = command.aim.conn := by
  obtain ⟨stage, before⟩ := covers id command present
  have same := owned.agree id _ before
  rw [conn]
  exact same

variable [DecidableEq ι] [DecidableEq α] [DecidableEq φ]

def setCommand (v : Table ι α φ) (id : ι) (command : Option (Command α φ)) : Table ι α φ :=
  { v with command := Function.update v.command id command }

def setConn (v : Table ι α φ) (address : α) (conn : Conn φ) : Table ι α φ :=
  { v with conn := Function.update v.conn address conn }

def setSocket (v : Table ι α φ) (fd : φ) (peer : Option α) : Table ι α φ :=
  { v with socket := Function.update v.socket fd peer }

inductive Turn (v : Table ι α φ) : Table ι α φ → Prop
  | register {address : α} (unknown : v.conn address = .unknown) :
      Turn v (v.setConn address .closed)
  | ask {id : ι} {address : α} {aim : Aim φ} (unused : v.command id = none)
      (conn : v.conn address = aim.conn) (idle : v.Idle address) :
      Turn v (v.setCommand id (some ⟨address, aim, .asked⟩))
  | issue {id : ι} {address : α} {aim : Aim φ}
      (present : v.command id = some ⟨address, aim, .asked⟩) :
      Turn v (v.setCommand id (some ⟨address, aim, .issued⟩))
  | connect {id : ι} {address : α} {fd : φ}
      (present : v.command id = some ⟨address, .opens, .issued⟩) (unused : v.socket fd = none) :
      Turn v ((v.setCommand id (some ⟨address, .opens, .reported (some fd)⟩)).setSocket fd
        (some address))
  | refuse {id : ι} {address : α} (present : v.command id = some ⟨address, .opens, .issued⟩) :
      Turn v (v.setCommand id (some ⟨address, .opens, .reported none⟩))
  | close {id : ι} {address : α} {fd : φ}
      (present : v.command id = some ⟨address, .closes fd, .issued⟩) :
      Turn v ((v.setCommand id (some ⟨address, .closes fd, .reported none⟩)).setSocket fd none)
  | record {id : ι} {address : α} {aim : Aim φ} {result : Option φ}
      (present : v.command id = some ⟨address, aim, .reported result⟩) :
      Turn v ((v.setCommand id none).setConn address (.ofResult result))

section Turn

variable {id : ι} {address : α} {aim : Aim φ} {stage stage' : Stage φ}

omit [DecidableEq α] [DecidableEq φ] in
theorem setCommand_some {id' : ι} {new : Option (Command α φ)} {command : Command α φ} :
    (v.setCommand id new).command id' = some command ↔
      id' = id ∧ new = some command ∨ id' ≠ id ∧ v.command id' = some command := by
  by_cases same : id' = id
  · simp [setCommand, same]
  · simp [setCommand, same]

omit [DecidableEq α] [DecidableEq φ] in
theorem covers_restage (present : v.command id = some ⟨address, aim, stage⟩) :
    Covers v (v.setCommand id (some ⟨address, aim, stage'⟩)) := by
  intro id' command after
  rcases setCommand_some.mp after with ⟨rfl, new⟩ | ⟨-, old⟩
  · obtain rfl := Option.some.inj new
    exact ⟨stage, present⟩
  · exact ⟨command.stage, old⟩

omit [DecidableEq α] [DecidableEq φ] in
theorem owner_restage (owned : Owned v) (present : v.command id = some ⟨address, aim, stage⟩)
    (before : ∀ fd, stage ≠ .reported (some fd)) (fd : φ) (peer : α)
    (socket : v.socket fd = some peer) : v.conn peer = .opened fd ∨
      ∃ id', (v.setCommand id (some ⟨address, aim, stage'⟩)).command id' =
        some ⟨peer, .opens, .reported (some fd)⟩ := by
  rcases owned.owner fd peer socket with recorded | ⟨id', reported⟩
  · exact .inl recorded
  · refine .inr ⟨id', setCommand_some.mpr (.inr ⟨?_, reported⟩)⟩
    rintro rfl
    have same := Option.some.inj (present.symm.trans reported)
    exact before fd (congrArg Command.stage same)

omit [DecidableEq α] [DecidableEq φ] in
theorem gone_restage (owned : Owned v) {id' : ι} {peer : α} {fd : φ} {result : Option φ}
    (other : ∀ fd, aim = .closes fd → ∀ result, stage' ≠ .reported result)
    (after : (v.setCommand id (some ⟨address, aim, stage'⟩)).command id' =
      some ⟨peer, .closes fd, .reported result⟩) :
    result = none ∧ ∀ fd', v.socket fd' ≠ some peer := by
  rcases setCommand_some.mp after with ⟨rfl, new⟩ | ⟨-, old⟩
  · obtain ⟨-, rfl, rfl⟩ := Command.mk.inj (Option.some.inj new)
    exact absurd rfl (other fd rfl result)
  · exact owned.gone id' peer fd result old

theorem Owned.turn (owned : Owned v) (turn : Turn v w) : Owned w := by
  cases turn with
  | register unknown =>
      rename_i address
      have other (peer : α) (known : v.conn peer ≠ .unknown) :
          (v.setConn address .closed).conn peer = v.conn peer := by
        apply Function.update_of_ne
        rintro rfl
        exact known unknown
      constructor
      · exact owned.single
      · intro id command present
        have conn := owned.agree id command present
        rw [other _ (by rw [conn]; cases command.aim <;> nofun)]
        exact conn
      · intro fd peer socket
        rcases owned.owner fd peer socket with recorded | reported
        · exact .inl ((other peer (by rw [recorded]; nofun)).trans recorded)
        · exact .inr reported
      · exact owned.gone
  | ask unused conn idle =>
      rename_i id address aim
      constructor
      · intro first command second command' present present' same
        rcases setCommand_some.mp present with ⟨rfl, new⟩ | ⟨-, old⟩
        · rcases setCommand_some.mp present' with ⟨rfl, -⟩ | ⟨-, old'⟩
          · rfl
          · obtain rfl := Option.some.inj new
            exact absurd same.symm (idle second command' old')
        · rcases setCommand_some.mp present' with ⟨rfl, new'⟩ | ⟨-, old'⟩
          · obtain rfl := Option.some.inj new'
            exact absurd same (idle first command old)
          · exact owned.single first command second command' old old' same
      · intro id' command present
        rcases setCommand_some.mp present with ⟨rfl, new⟩ | ⟨-, old⟩
        · exact Option.some.inj new ▸ conn
        · exact owned.agree id' command old
      · intro fd peer socket
        rcases owned.owner fd peer socket with recorded | ⟨id', reported⟩
        · exact .inl recorded
        · refine .inr ⟨id', setCommand_some.mpr (.inr ⟨?_, reported⟩)⟩
          rintro rfl
          cases unused.symm.trans reported
      · intro id' peer fd result after
        exact gone_restage owned (by intro _ _ _; nofun) after
  | issue present =>
      constructor
      · exact owned.single_of_covers (covers_restage present)
      · exact owned.agree_of_covers (covers_restage present) rfl
      · exact owner_restage owned present fun _ => nofun
      · intro id' peer fd result after
        exact gone_restage owned (by intro _ _ _; nofun) after
  | connect present unused =>
      rename_i id address fd
      have covers : Covers v (v.setCommand id (some ⟨address, .opens, .reported (some fd)⟩)) :=
        covers_restage present
      constructor
      · exact owned.single_of_covers covers
      · exact owned.agree_of_covers covers rfl
      · intro fd' peer socket
        by_cases same : fd' = fd
        · subst same
          have peers : some address = some peer := by simpa [setSocket] using socket
          obtain rfl := Option.some.inj peers
          exact .inr ⟨id, setCommand_some.mpr (.inl ⟨rfl, rfl⟩)⟩
        · have before : v.socket fd' = some peer := by
            simpa [setSocket, setCommand, same] using socket
          exact owner_restage owned present (fun _ => nofun) fd' peer before
      · intro id' peer fd' result after
        obtain ⟨none, free⟩ := gone_restage owned (by nofun) after
        refine ⟨none, fun fd'' socket => ?_⟩
        by_cases same : fd'' = fd
        · subst same
          have peers : some address = some peer := by simpa [setSocket] using socket
          obtain rfl := Option.some.inj peers
          obtain ⟨stage, before⟩ := covers id' _ after
          obtain rfl := owned.single id' _ id _ before present rfl
          cases before.symm.trans present
        · exact free fd'' (by simpa [setSocket, setCommand, same] using socket)
  | refuse present =>
      constructor
      · exact owned.single_of_covers (covers_restage present)
      · exact owned.agree_of_covers (covers_restage present) rfl
      · exact owner_restage owned present fun _ => nofun
      · intro id' peer fd result after
        exact gone_restage owned (by nofun) after
  | close present =>
      rename_i id address fd
      have covers : Covers v (v.setCommand id (some ⟨address, .closes fd, .reported none⟩)) :=
        covers_restage present
      have kept (fd' : φ) (peer : α) (socket : ((v.setCommand id (some ⟨address, .closes fd,
          .reported none⟩)).setSocket fd none).socket fd' = some peer) :
          fd' ≠ fd ∧ v.socket fd' = some peer := by
        by_cases same : fd' = fd
        · simp [setSocket, same] at socket
        · exact ⟨same, by simpa [setSocket, setCommand, same] using socket⟩
      constructor
      · exact owned.single_of_covers covers
      · exact owned.agree_of_covers covers rfl
      · intro fd' peer socket
        exact owner_restage owned present (fun _ => nofun) fd' peer (kept fd' peer socket).2
      · intro id' peer fd' result after
        rcases setCommand_some.mp after with ⟨rfl, new⟩ | ⟨-, old⟩
        · obtain ⟨rfl, -, reported⟩ := Command.mk.inj (Option.some.inj new)
          refine ⟨(Stage.reported.inj reported).symm, fun fd'' socket => ?_⟩
          obtain ⟨other, before⟩ := kept fd'' _ socket
          -- the one socket of the address is the one that was closed
          rcases owned.owner fd'' _ before with recorded | ⟨id'', opened⟩
          · exact other (Conn.opened.inj (recorded.symm.trans (owned.agree id' _ present)))
          · obtain rfl := owned.single id' _ id'' _ present opened rfl
            cases present.symm.trans opened
        · obtain ⟨none, free⟩ := owned.gone id' peer fd' result old
          exact ⟨none, fun fd'' socket => free fd'' (kept fd'' peer socket).2⟩
  | record present =>
      rename_i id address aim result
      have before (id' : ι) (command : Command α φ)
          (after : (v.setCommand id none).command id' = some command) :
          id' ≠ id ∧ v.command id' = some command := by
        rcases setCommand_some.mp after with ⟨-, new⟩ | old
        · cases new
        · exact old
      constructor
      · intro first command second command' present' present'' same
        exact owned.single first command second command' (before _ _ present').2
          (before _ _ present'').2 same
      · intro id' command after
        obtain ⟨other, old⟩ := before id' command after
        have apart : command.address ≠ address :=
          fun same => other (owned.single id' _ id _ old present same)
        simpa [setConn, setCommand, apart] using owned.agree id' command old
      · intro fd peer socket
        by_cases same : peer = address
        · subst same
          rcases owned.owner fd peer socket with recorded | ⟨id', reported⟩
          · have aims := recorded.symm.trans (owned.agree id _ present)
            cases aim with
            | opens => cases aims
            | closes fd' => exact absurd socket ((owned.gone id peer fd' result present).2 fd)
          · obtain rfl := owned.single id _ id' _ present reported rfl
            have stages := congrArg Command.stage (Option.some.inj (present.symm.trans reported))
            obtain rfl := Stage.reported.inj stages
            exact .inl (by simp [setConn, Conn.ofResult])
        · rcases owned.owner fd peer socket with recorded | ⟨id', reported⟩
          · exact .inl (by simpa [setConn, setCommand, same] using recorded)
          · refine .inr ⟨id', setCommand_some.mpr (.inr ⟨?_, reported⟩)⟩
            rintro rfl
            exact same (congrArg Command.address (Option.some.inj (reported.symm.trans present)))
      · intro id' peer fd result' after
        exact owned.gone id' peer fd result' (before id' _ after).2

theorem Owned.turns (owned : Owned v) (turns : Relation.ReflTransGen Turn v w) : Owned w := by
  induction turns with
  | refl => exact owned
  | tail _ turn ih => exact ih.turn turn

end Turn

end Table

end FileSharing.Library
