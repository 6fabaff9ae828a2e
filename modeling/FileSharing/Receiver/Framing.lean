import FileSharing.Library.Runs
import FileSharing.Shared.Records

/-! How `run_receiver` cuts the byte stream of a descriptor into messages. -/

namespace FileSharing

open Library

namespace Framing

/-- The bytes of each descriptor that were not read yet, and the calls of
`send_to_processor` so far. -/
structure State where
  streams : Int → Bytea
  sent : List NewmsgData

/-- One epoll event of a descriptor: what the successive `read` calls return, up to the one
that reports EAGAIN. -/
structure Event where
  fd : Int
  counts : List Nat

/-- The reading loop, where `data` is the part of `nmsg.data` that is filled. Counts that
`read` cannot return have no outcome. -/
def readLoop (fd : Int) (size : Nat) : Bytea → Bytea → List Nat → Option (List NewmsgData × Bytea)
  | _, stream, [] => some ([], stream)
  | data, stream, count :: counts =>
      if 1 ≤ count ∧ count ≤ size - data.length ∧ count ≤ stream.length then
        let total := data ++ stream.take count
        if total.length = size then
          (readLoop fd size [] (stream.drop count) counts).map fun (sent, rest) =>
            (⟨fd, total.length, total⟩ :: sent, rest)
        else readLoop fd size total (stream.drop count) counts
      else none

/-- `sizes fd` is what `hget` returns for the key of the descriptor; each event starts with
`total_bytes_read = 0`. -/
def step (sizes : Int → Nat) (s : State) (event : Event) : Option State :=
  (readLoop event.fd (sizes event.fd) [] (s.streams event.fd) event.counts).map
    fun (sent, rest) =>
      { streams := Function.update s.streams event.fd rest, sent := s.sent ++ sent }

def runReceiver (sizes : Int → Nat) : State → List Event → Option State := run (step sizes)

def State.sentOn (s : State) (fd : Int) : List NewmsgData := s.sent.filter fun m => m.data1 = fd

def Event.lost (sizes : Int → Nat) (event : Event) : Nat := event.counts.sum % sizes event.fd

/-- What one event hands over, and the bytes `left` that its last partial message loses. -/
theorem readLoop_spec {fd : Int} {size : Nat} {data stream : Bytea} {counts : List Nat}
    {sent : List NewmsgData} {rest : Bytea} (short : data.length < size)
    (done : readLoop fd size data stream counts = some (sent, rest)) :
    ∃ left : Bytea, left.length < size ∧
      sent.flatMap NewmsgData.data ++ left ++ rest = data ++ stream ∧
      (∀ m ∈ sent, m.data1 = fd ∧ m.data2 = size ∧ m.data.length = size) ∧
      left.length = (data.length + counts.sum) % size := by
  induction counts generalizing data stream sent rest with
  | nil =>
      simp only [readLoop, Option.some.injEq, Prod.mk.injEq] at done
      obtain ⟨rfl, rfl⟩ := done
      exact ⟨data, short, by simp, by simp, by simp [Nat.mod_eq_of_lt short]⟩
  | cons count counts ih =>
      rw [readLoop] at done
      split at done
      · next possible =>
          obtain ⟨positive, room, available⟩ := possible
          have taken : (stream.take count).length = count := by
            rw [List.length_take, Nat.min_eq_left available]
          simp only [List.length_append, taken] at done
          split at done
          · next complete =>
              obtain ⟨⟨later, rest'⟩, tail, same⟩ := Option.map_eq_some_iff.mp done
              simp only [Prod.mk.injEq] at same
              obtain ⟨rfl, rfl⟩ := same
              obtain ⟨left, bound, bytes, each, remainder⟩ :=
                ih (by simp only [List.length_nil]; omega) tail
              refine ⟨left, bound, ?_, ?_, ?_⟩
              · rw [List.flatMap_cons, List.append_assoc, List.append_assoc, ← List.append_assoc _ left,
                  bytes, List.nil_append, List.append_assoc, List.take_append_drop]
              · intro m member
                rcases List.mem_cons.mp member with rfl | inside
                · exact ⟨rfl, complete, by simp [taken, complete]⟩
                · exact each m inside
              · rw [remainder, List.sum_cons, ← Nat.add_assoc, complete]
                simp
          · next partialRead =>
              obtain ⟨left, bound, bytes, each, remainder⟩ :=
                ih (by simp only [List.length_append, taken]; omega) done
              refine ⟨left, bound, ?_, each, ?_⟩
              · rw [bytes, List.append_assoc, List.take_append_drop]
              · rw [remainder, List.length_append, taken, List.sum_cons, Nat.add_assoc]
      · cases done

theorem readLoop_fd {fd : Int} {size : Nat} {data stream : Bytea} {counts : List Nat}
    {sent : List NewmsgData} {rest : Bytea}
    (done : readLoop fd size data stream counts = some (sent, rest)) :
    ∀ m ∈ sent, m.data1 = fd := by
  induction counts generalizing data stream sent rest with
  | nil =>
      simp only [readLoop, Option.some.injEq, Prod.mk.injEq] at done
      simp [← done.1]
  | cons count counts ih =>
      rw [readLoop] at done
      split at done
      · simp only at done
        split at done
        · obtain ⟨⟨later, rest'⟩, tail, same⟩ := Option.map_eq_some_iff.mp done
          simp only [Prod.mk.injEq] at same
          intro m member
          rw [← same.1] at member
          rcases List.mem_cons.mp member with rfl | inside
          · rfl
          · exact ih tail m inside
        · exact ih done
      · cases done

theorem run_spec {sizes : Int → Nat} {fd : Int} (positive : 1 ≤ sizes fd) {s t : State}
    {events : List Event} (done : runReceiver sizes s events = some t) :
    ∃ sent : List NewmsgData, t.sentOn fd = s.sentOn fd ++ sent ∧
      (∀ m ∈ sent, m.data1 = fd ∧ m.data2 = sizes fd ∧ m.data.length = sizes fd) ∧
      sent.length * sizes fd + ((events.filter (·.fd = fd)).map (Event.lost sizes)).sum +
        (t.streams fd).length = (s.streams fd).length ∧
      ((∀ e ∈ events, e.fd = fd → sizes fd ∣ e.counts.sum) →
        sent.flatMap NewmsgData.data ++ t.streams fd = s.streams fd) := by
  induction events generalizing s with
  | nil =>
      obtain rfl := Option.some.inj done
      exact ⟨[], by simp⟩
  | cons event events ih =>
      obtain ⟨u, head, tail⟩ := run_cons.mp done
      obtain ⟨later, appended, each, total, whole⟩ := ih tail
      obtain ⟨⟨first, rest⟩, loop, rfl⟩ := Option.map_eq_some_iff.mp head
      by_cases same : event.fd = fd
      · subst same
        obtain ⟨left, -, bytes, own, remainder⟩ :=
          readLoop_spec (Nat.lt_of_lt_of_le Nat.zero_lt_one positive) loop
        have mine : first.filter (fun m => decide (m.data1 = event.fd)) = first :=
          List.filter_eq_self.mpr fun m member => by simp [(own m member).1]
        have length : (first.flatMap NewmsgData.data).length = first.length * sizes event.fd := by
          rw [List.length_flatMap, List.map_congr_left fun m member => (own m member).2.2]
          simp
        simp only [Function.update_self] at total whole
        refine ⟨first ++ later, ?_, ?_, ?_, ?_⟩
        · rw [appended]
          simp [State.sentOn, mine]
        · intro m member
          rcases List.mem_append.mp member with left | right
          · exact own m left
          · exact each m right
        · have sum := congrArg List.length bytes
          simp only [List.length_append, length, List.nil_append] at sum
          simp only [List.filter_cons, decide_true, if_true, List.map_cons, List.sum_cons,
            List.length_append, Nat.add_mul, Event.lost]
          simp only [List.length_nil, Nat.zero_add] at remainder
          omega
        · intro divides
          have none_left : left = [] := by
            apply List.eq_nil_of_length_eq_zero
            rw [remainder, List.length_nil, Nat.zero_add]
            exact Nat.mod_eq_zero_of_dvd (divides event List.mem_cons_self rfl)
          rw [none_left, List.append_nil, List.nil_append] at bytes
          rw [List.flatMap_append, List.append_assoc,
            whole fun e member => divides e (List.mem_cons_of_mem _ member), bytes]
      · have others : first.filter (fun m => decide (m.data1 = fd)) = [] := by
          apply List.filter_eq_nil_iff.mpr
          intro m member
          simpa [readLoop_fd loop m member] using same
        have stream : Function.update s.streams event.fd rest fd = s.streams fd :=
          Function.update_of_ne (Ne.symm same) _ _
        simp only [stream] at total whole
        refine ⟨later, ?_, each, ?_, ?_⟩
        · rw [appended]
          simp [State.sentOn, others]
        · rwa [List.filter_cons_of_neg (by simpa using same)]
        · intro divides
          exact whole fun e member => divides e (List.mem_cons_of_mem _ member)

theorem blocks_unique {size : Nat} (positive : 1 ≤ size) {left right : List Bytea}
    (hl : ∀ m ∈ left, m.length = size) (hr : ∀ m ∈ right, m.length = size)
    (same : left.flatten = right.flatten) : left = right := by
  have lengths {blocks : List Bytea} (each : ∀ m ∈ blocks, m.length = size) :
      blocks.map List.length = List.replicate blocks.length size := by
    rw [List.map_congr_left each, List.map_const']
  have total := congrArg List.length same
  rw [List.length_flatten, List.length_flatten, lengths hl, lengths hr, List.sum_replicate,
    List.sum_replicate, smul_eq_mul, smul_eq_mul] at total
  have count : left.length = right.length := Nat.eq_of_mul_eq_mul_right positive total
  refine List.eq_iff_flatten_eq.mpr ⟨same, ?_⟩
  rw [lengths hl, lengths hr, count]

/-- With the stream of a descriptor consumed, its messages are the ones handed over exactly
if every event of the descriptor ends at a message boundary. -/
theorem receives_iff_whole_events {sizes : Int → Nat} {msgs : Int → List Bytea}
    {events : List Event} {t : State} {fd : Int} (positive : 1 ≤ sizes fd)
    (lengths : ∀ m ∈ msgs fd, m.length = sizes fd)
    (done : runReceiver sizes ⟨fun d => (msgs d).flatten, []⟩ events = some t)
    (consumed : t.streams fd = []) :
    t.sentOn fd = (msgs fd).map (fun m => ⟨fd, sizes fd, m⟩) ↔
      ∀ e ∈ events, e.fd = fd → sizes fd ∣ e.counts.sum := by
  obtain ⟨sent, appended, each, total, whole⟩ := run_spec positive done
  have calls : t.sentOn fd = sent := by
    rw [appended]
    simp [State.sentOn]
  simp only [consumed, List.length_nil, Nat.add_zero, List.append_nil] at total whole
  rw [calls]
  constructor
  · intro complete e member on
    have stream : (msgs fd).flatten.length = (msgs fd).length * sizes fd := by
      rw [List.length_flatten, List.map_congr_left lengths]
      simp
    have count : sent.length = (msgs fd).length := by rw [complete, List.length_map]
    have nothing : ((events.filter (·.fd = fd)).map (Event.lost sizes)).sum = 0 := by
      rw [stream, count] at total
      omega
    have lost : e.lost sizes = 0 := by
      apply List.sum_eq_zero_iff.mp nothing
      exact List.mem_map_of_mem (List.mem_filter.mpr ⟨member, by simpa using on⟩)
    rw [Event.lost, on] at lost
    exact Nat.dvd_of_mod_eq_zero lost
  · intro divides
    have bytes : sent.map NewmsgData.data = msgs fd := by
      apply blocks_unique positive _ lengths
      · rw [← whole divides, List.flatMap_def]
      · intro m member
        obtain ⟨call, inside, rfl⟩ := List.mem_map.mp member
        exact (each call inside).2.2
    rw [← bytes, List.map_map]
    calc
      sent = sent.map id := (List.map_id sent).symm
      _ = _ := List.map_congr_left fun m member => by
          obtain ⟨on, size, -⟩ := each m member
          cases m
          simp_all

theorem receives_whole_event :
    ∃ t, runReceiver (fun _ => 2) ⟨fun d => (if d = 7 then [[1, 2]] else []).flatten, []⟩
        [⟨7, [1, 1]⟩] = some t ∧ t.sentOn 7 = [⟨7, 2, [1, 2]⟩] := by
  have whole : ∀ e ∈ [(⟨7, [1, 1]⟩ : Event)], e.fd = 7 → 2 ∣ e.counts.sum := by decide
  exact ⟨_, rfl, (@receives_iff_whole_events (fun _ => 2) (fun d => if d = 7 then [[1, 2]] else [])
    [⟨7, [1, 1]⟩] _ 7 (by decide) (by decide) rfl rfl).mpr whole⟩

/-- A message of two bytes that arrives in two events is never handed over. -/
theorem receiver_loses_split_message :
    ∃ t, runReceiver (fun _ => 2) ⟨fun d => if d = 7 then [1, 2] else [], []⟩
        [⟨7, [1]⟩, ⟨7, [1]⟩] = some t ∧ t.streams 7 = [] ∧
      t.sentOn 7 = [] ∧ t.sentOn 7 ≠ [⟨7, 2, [1, 2]⟩] :=
  ⟨_, rfl, rfl, rfl, by decide⟩

end Framing

end FileSharing
