import FileSharing.Receiver.Deletion

/-! The hash table as a map, when the nodes of deleted keys are used again. -/

namespace FileSharing

open Library

namespace Hash

/-- The map that a table stands for, and the texts that were copied last to the nodes of the
pool, beginning with the node that the next `hput` takes. -/
structure Ledger where
  contents : Key → Option Value
  idle : List (List UInt8)

namespace Ledger

def put (ledger : Ledger) (k : Key) (v : Value) : Ledger :=
  match ledger.idle with
  | [] => ledger
  | _ :: rest => ⟨Function.update ledger.contents k (some v), rest⟩

def del (ledger : Ledger) (k : Key) : Ledger :=
  if ledger.contents k = none then ledger
  else ⟨Function.update ledger.contents k none, k.text :: ledger.idle⟩

def call (ledger : Ledger) : Call Value → Ledger
  | .put k v => ledger.put k v
  | .get _ => ledger
  | .del k => ledger.del k

def Absent (ledger : Ledger) : Call Value → Prop
  | .put k _ => ledger.contents k = none
  | .get _ => True
  | .del _ => True

def Covers (ledger : Ledger) : Call Value → Prop
  | .put k _ => ∀ text ∈ ledger.idle.head?, text.length ≤ k.text.length
  | .get _ => True
  | .del _ => True

instance decidableAbsent (ledger : Ledger) : ∀ call, Decidable (ledger.Absent call)
  | .put k _ => inferInstanceAs (Decidable (ledger.contents k = none))
  | .get _ => .isTrue trivial
  | .del _ => .isTrue trivial

instance decidableCovers (ledger : Ledger) : ∀ call, Decidable (ledger.Covers call)
  | .put k _ => inferInstanceAs (Decidable (∀ text ∈ ledger.idle.head?, text.length ≤ k.text.length))
  | .get _ => .isTrue trivial
  | .del _ => .isTrue trivial

def created (size : Nat) : Ledger := ⟨fun _ => none, List.replicate size []⟩

def after (size : Nat) (calls : List (Call Value)) : Ledger := calls.foldl call (created size)

end Ledger

def Fresh (size : Nat) (calls : List (Call Value)) : Prop :=
  Guarded (fun ledger call => some (Ledger.call ledger call)) Ledger.Absent (.created size) calls

def Covering (size : Nat) (calls : List (Call Value)) : Prop :=
  Guarded (fun ledger call => some (Ledger.call ledger call)) Ledger.Covers (.created size) calls

instance decidableFresh (size : Nat) (calls : List (Call Value)) : Decidable (Fresh size calls) :=
  inferInstanceAs (Decidable (Guarded _ _ _ _))

instance decidableCovering (size : Nat) (calls : List (Call Value)) :
    Decidable (Covering size calls) :=
  inferInstanceAs (Decidable (Guarded _ _ _ _))

def intOf (v : Value) : Int := (v : Nat)

def Call.key {V : Type} : Call V → Key
  | .put k _ => k
  | .get k => k
  | .del k => k

structure Answers (htable : HashTable) (ledger : Ledger) : Prop where
  get : ∀ k : Key, hget htable k.text = some ((ledger.contents k).elim (-2) intOf)
  del : ∀ k : Key, ∃ result htable', hdel htable k.text = some (result, htable') ∧
    (result = 0 ↔ ledger.contents k ≠ none)
  put : ∀ (k : Key) (v : Value), ∃ result htable', hput htable k.text (intOf v) =
    some (result, htable') ∧ (result = 0 ↔ ledger.idle ≠ [])

/-- As long as the calls go on, the table behaves like a map, and a call for one key does not
change what is found for another. -/
structure MapLike (size : Nat) (calls : List (Call Value)) : Prop where
  answers : ∀ before, before <+: calls → ∃ htable,
    run (next intOf) (hcreateTable size) before = some htable ∧ Answers htable (.after size before)
  others : ∀ before call, before ++ [call] <+: calls → ∃ htable htable',
    run (next intOf) (hcreateTable size) before = some htable ∧ next intOf htable call = some htable' ∧
      ∀ other : Key, other ≠ call.key → hget htable' other.text = hget htable other.text

section Entries

variable {α β K V : Type} [DecidableEq K] {entries : List (K × V)} {k : K}

theorem erase_forall₂ {R : α → β → Prop} {xs : List α} {ys : List β} {p : α → Bool} {q : β → Bool}
    (related : List.Forall₂ R xs ys) (same : ∀ x y, R x y → p x = q y) :
    List.Forall₂ R (xs.eraseP p) (ys.eraseP q) := by
  induction related with
  | nil => exact .nil
  | @cons x y xs ys head tail ih =>
      rw [List.eraseP_cons, List.eraseP_cons, same x y head]
      cases q y with
      | true => exact tail
      | false => exact .cons head ih

def lookup (entries : List (K × V)) (k : K) : Option V :=
  (entries.find? fun e => e.1 = k).map Prod.snd

theorem lookup_eq_none : lookup entries k = none ↔ k ∉ entries.map Prod.fst := by
  rw [lookup, Option.map_eq_none_iff, List.find?_eq_none]
  constructor
  · intro missed present
    obtain ⟨e, member, key⟩ := List.mem_map.mp present
    exact missed e member (decide_eq_true key)
  · intro outside e member key
    exact outside (List.mem_map.mpr ⟨e, member, of_decide_eq_true key⟩)

theorem lookup_put (absent : lookup entries k = none) (v : V) :
    lookup (entries ++ [(k, v)]) = Function.update (lookup entries) k (some v) := by
  funext other
  rw [lookup, List.find?_append]
  by_cases same : other = k
  · subst same
    rw [Option.map_eq_none_iff.mp absent, Function.update_self]
    simp
  · rw [Function.update_of_ne same, lookup]
    simp [Ne.symm same]

theorem lookup_del (nodup : (entries.map Prod.fst).Nodup) :
    lookup (entries.eraseP fun e => e.1 = k) = Function.update (lookup entries) k none := by
  induction entries with
  | nil =>
      funext other
      by_cases same : other = k
      · rw [same, Function.update_self]
        rfl
      · rw [Function.update_of_ne same]
        rfl
  | cons e rest ih =>
      obtain ⟨head, tail⟩ := List.nodup_cons.mp nodup
      funext other
      by_cases found : e.1 = k
      · rw [List.eraseP_cons_of_pos (by simpa using found)]
        by_cases same : other = k
        · rw [same, Function.update_self, lookup_eq_none, ← found]
          exact head
        · rw [Function.update_of_ne same, lookup, lookup,
            List.find?_cons_of_neg (by simpa [found] using Ne.symm same)]
      · rw [List.eraseP_cons_of_neg (by simpa using found)]
        have later := congrFun (ih tail) other
        by_cases here : e.1 = other
        · have apart : other ≠ k := fun same => found (here.trans same)
          rw [Function.update_of_ne apart, lookup, lookup,
            List.find?_cons_of_pos (by simpa using here),
            List.find?_cons_of_pos (by simpa using here)]
        · have missed (more : List (K × V)) : lookup (e :: more) other = lookup more other := by
            rw [lookup, List.find?_cons_of_neg (by simpa using here), lookup]
          rw [missed, later]
          by_cases same : other = k
          · rw [same, Function.update_self, Function.update_self]
          · rw [Function.update_of_ne same, Function.update_of_ne same, missed]

end Entries

section Stock

variable {htable htable' : HashTable} {chains : Nat → List Nat} {pool rest : List Nat} {a : Nat}
  {puts : List (Key × Value)} {k : Key} {v : Value}

theorem copyTo_over (old key : List UInt8) : copyTo (copyTo (fun _ => 0) 0 old) 0 key =
    copyTo (fun _ => 0) 0 (key ++ old.drop key.length) := by
  funext i
  rw [clean_byte, List.getElem?_append]
  by_cases low : i < key.length
  · rw [if_pos low, copyTo, if_pos (Nat.zero_le i), Nat.sub_zero, List.getElem?_eq_getElem low]
    rfl
  · have behind : key.length + (i - key.length) = i := by omega
    rw [if_neg low, copyTo_outside _ (.inr (by omega)), clean_byte, List.getElem?_drop, behind]

theorem listed_del (del : Del htable chains pool a k.text htable') (listed : Listed htable chains puts) :
    Listed htable' (Function.update chains (index htable.tableSize k.text)
      (without htable chains k.text)) (puts.eraseP fun e => e.1 = k) := by
  intro i low
  rw [del.tableSize] at low ⊢
  have moved (b : Nat) (e : Key × Value) (holds : Holds htable b e) : Holds htable' b e := by
    obtain ⟨key, value⟩ := del.nodes b
    exact ⟨key.trans holds.1, value.trans holds.2⟩
  by_cases same : i = index htable.tableSize k.text
  · subst same
    have fewer := erase_forall₂ (listed _ low) fun b e holds => same_key holds k
    have inside : (fun e : Key × Value => decide (e.1 = k) &&
        decide (index htable.tableSize e.1.text = index htable.tableSize k.text)) =
          fun e => decide (e.1 = k) := by
      funext e
      by_cases found : e.1 = k
      · simp [found]
      · simp [found]
    rw [List.eraseP_filter, inside] at fewer
    rw [Function.update_self]
    exact fewer.imp moved
  · have kept : (puts.eraseP fun e => e.1 = k).filter (fun e => index htable.tableSize e.1.text = i) =
        puts.filter fun e => index htable.tableSize e.1.text = i := by
      cases List.exists_or_eq_self_of_eraseP (fun e : Key × Value => decide (e.1 = k)) puts with
      | inl whole => rw [whole]
      | inr found =>
          obtain ⟨e, early, late, -, key, split, erased⟩ := found
          have apart : ¬ index htable.tableSize e.1.text = i := by
            rw [of_decide_eq_true key]
            exact Ne.symm same
          rw [erased, split, List.filter_append, List.filter_append,
            List.filter_cons_of_neg (by simpa using apart)]
    rw [Function.update_of_ne same, kept]
    exact (listed i low).imp moved

/-- The nodes of the chains hold the entries of the map, and those of the pool are filled with
the texts of earlier keys. -/
structure Stocked (htable : HashTable) (chains : Nat → List Nat) (pool : List Nat)
    (puts : List (Key × Value)) (ledger : Ledger) : Prop where
  rep : Represents htable chains pool
  listed : Listed htable chains puts
  distinct : (puts.map Prod.fst).Nodup
  contents : lookup puts = ledger.contents
  idle : List.Forall₂ (fun a text => (htable.nodes a).key = copyTo (fun _ => 0) 0 text ∧ 0 ∉ text)
    pool ledger.idle

variable {ledger : Ledger} (stocked : Stocked htable chains pool puts ledger)

include stocked

theorem stocked_get (k : Key) :
    hget htable k.text = some ((ledger.contents k).elim (-2) intOf) := by
  rw [hget_listed stocked.rep stocked.listed k, ← stocked.contents, first, lookup]
  cases puts.find? fun e => e.1 = k with
  | none => rfl
  | some e => rfl

theorem stocked_holder (k : Key) :
    Option.Rel (Holds htable) (holder htable chains k.text) (puts.find? fun e => e.1 = k) :=
  holder_listed stocked.rep.positive stocked.listed k

theorem stocked_del (k : Key) : ∃ result htable' chains' pool' puts',
    hdel htable k.text = some (result, htable') ∧ (result = 0 ↔ ledger.contents k ≠ none) ∧
      Stocked htable' chains' pool' puts' (ledger.del k) := by
  have found := stocked_holder stocked k
  have known := congrFun stocked.contents k
  rw [lookup] at known
  cases hdel_ok stocked.rep k.text with
  | inl missed =>
      obtain ⟨none, done⟩ := missed
      rw [none] at found
      generalize puts.find? (fun e => e.1 = k) = entry at found known
      cases found
      have out : ledger.contents k = Option.none := known.symm
      refine ⟨-2, htable, chains, pool, puts, done, by simp [out], ?_⟩
      rw [Ledger.del, if_pos out]
      exact stocked
  | inr freed =>
      obtain ⟨a, htable', some, done, del⟩ := freed
      rw [some] at found
      cases entry : puts.find? fun e => e.1 = k with
      | none =>
          rw [entry] at found
          cases found
      | some e =>
          rw [entry] at found known
          obtain holds := Option.rel_some_some.mp found
          have key : e.1 = k := by simpa using List.find?_some entry
          have present : ledger.contents k ≠ none := by
            rw [← known]
            simp
          refine ⟨0, htable', _, a :: pool, puts.eraseP (fun e => e.1 = k), done, by simp [present],
            del.rep, listed_del del stocked.listed, ?_, ?_, ?_⟩
          · exact stocked.distinct.sublist (List.eraseP_sublist.map Prod.fst)
          · rw [lookup_del stocked.distinct, stocked.contents, Ledger.del, if_neg present]
          · rw [Ledger.del, if_neg present]
            have moved := stocked.idle.imp fun b text (filled : _ ∧ 0 ∉ text) =>
              (⟨(del.nodes b).1.trans filled.1, filled.2⟩ :
                (htable'.nodes b).key = copyTo (fun _ => 0) 0 text ∧ 0 ∉ text)
            exact .cons ⟨(del.nodes a).1.trans (key ▸ holds.1), k.noNul⟩ moved

theorem stocked_room (k : Key) (v : Value) : ∃ result htable',
    hput htable k.text (intOf v) = some (result, htable') ∧ (result = 0 ↔ ledger.idle ≠ []) := by
  have idle := stocked.idle
  cases pool with
  | nil =>
      have empty : ledger.idle = [] := List.forall₂_nil_left_iff.mp idle
      exact ⟨-1, htable, hput_full stocked.rep _ _, by simp [empty]⟩
  | cons a rest =>
      obtain ⟨htable', done, -⟩ := hput_ok stocked.rep k.text (intOf v)
      obtain ⟨text, texts, -, -, some⟩ := List.forall₂_cons_left_iff.mp idle
      exact ⟨0, htable', done, by simp [some]⟩

theorem stocked_put (absent : ledger.contents k = none)
    (covers : ∀ text ∈ ledger.idle.head?, text.length ≤ k.text.length) (v : Value) :
    ∃ result htable' chains' pool' puts', hput htable k.text (intOf v) = some (result, htable') ∧
      Stocked htable' chains' pool' puts' (ledger.put k v) := by
  have idle := stocked.idle
  cases pool with
  | nil =>
      have empty : ledger.idle = [] := List.forall₂_nil_left_iff.mp idle
      have same : ledger.put k v = ledger := by rw [Ledger.put, empty]
      exact ⟨-1, htable, chains, [], puts, hput_full stocked.rep _ _, same.symm ▸ stocked⟩
  | cons a rest =>
      obtain ⟨htable', done, put⟩ := hput_ok stocked.rep k.text (intOf v)
      obtain ⟨text, texts, ⟨key, -⟩, filled, split⟩ := List.forall₂_cons_left_iff.mp idle
      have fits : text.length ≤ k.text.length := covers text (by rw [split]; rfl)
      have grown : ledger.put k v = ⟨Function.update ledger.contents k (some v), texts⟩ := by
        rw [Ledger.put, split]
      have holds : Holds htable' a (k, v) := by
        refine ⟨?_, put.value⟩
        rw [put.key, key, copyTo_over, List.drop_eq_nil_iff.mpr fits, List.append_nil]
      have out : lookup puts k = none := (congrFun stocked.contents k).trans absent
      refine ⟨0, htable', _, rest, puts ++ [(k, v)], done, put.rep,
        listed_put stocked.rep put stocked.listed holds, ?_, ?_, ?_⟩
      · rw [List.map_append, List.nodup_append]
        refine ⟨stocked.distinct, List.nodup_singleton _, ?_⟩
        intro key' member other last same
        have last' : other = k := List.mem_singleton.mp last
        exact lookup_eq_none.mp out (last' ▸ same ▸ member)
      · rw [lookup_put out, stocked.contents, grown]
      · rw [grown]
        have paired := (List.forall₂_and_left rest _).mpr ⟨fun _ member => member, filled⟩
        refine paired.imp fun b text found => ?_
        exact ⟨(pool_put stocked.rep put found.1).trans found.2.1, found.2.2⟩

/-- The tail of a longer text stays behind the key, and the key is not found again. -/
theorem stocked_stale {text : List UInt8} {texts : List (List UInt8)}
    (absent : ledger.contents k = none) (split : ledger.idle = text :: texts)
    (longer : k.text.length < text.length) (v : Value) : ∃ htable',
      hput htable k.text (intOf v) = some (0, htable') ∧ hget htable' k.text = some (-2) := by
  have idle := stocked.idle
  rw [split] at idle
  obtain ⟨a, rest, ⟨key, clean⟩, -, rfl⟩ := List.forall₂_cons_right_iff.mp idle
  obtain ⟨htable', done, put⟩ := hput_ok stocked.rep k.text (intOf v)
  have inside := index_lt stocked.rep.positive k.text
  have out : puts.find? (fun e => e.1 = k) = none := by
    have known := (congrFun stocked.contents k).trans absent
    exact Option.map_eq_none_iff.mp known
  have missed : holder htable chains k.text = none := by
    have found := stocked_holder stocked k
    rw [out] at found
    generalize holder htable chains k.text = node at found
    cases found
    rfl
  have stale : sameKey (htable'.nodes a).key k.text = false := by
    have clean' : 0 ∉ k.text ++ text.drop k.text.length := by
      rw [List.mem_append, not_or]
      exact ⟨k.noNul, fun zero => clean (List.mem_of_mem_drop zero)⟩
    have different : k.text ++ text.drop k.text.length ≠ k.text := by
      intro same
      have size := congrArg List.length same
      rw [List.length_append, List.length_drop] at size
      omega
    rw [put.key, key, copyTo_over, Bool.eq_false_iff, ne_eq, sameKey_iff k.noNul clean']
    exact different
  have none : holder htable' (Function.update chains (index htable.tableSize k.text)
      (chains (index htable.tableSize k.text) ++ [a])) k.text = none := by
    rw [holder, List.find?_eq_none] at missed ⊢
    rw [put.tableSize, Function.update_self]
    intro b member
    cases List.mem_append.mp member with
    | inl early =>
        have apart : b ≠ a := fun same =>
          stocked.rep.apart_pool inside early (same ▸ List.mem_cons_self)
        rw [(put.others b apart).1]
        exact missed b early
    | inr last =>
        rw [List.mem_singleton.mp last, stale]
        exact Bool.false_ne_true
  refine ⟨htable', done, ?_⟩
  rw [hget_ok put.rep, none]
  rfl

end Stock

section Calls

variable {size : Nat} {calls before : List (Call Value)} {htable : HashTable} {ledger : Ledger}

theorem run_ledger (ledger : Ledger) (calls : List (Call Value)) :
    run (fun ledger call => some (Ledger.call ledger call)) ledger calls =
      some (calls.foldl Ledger.call ledger) := by
  induction calls generalizing ledger with
  | nil => rfl
  | cons call rest ih => exact ih (ledger.call call)

theorem guarded_last {allowed : Ledger → Call Value → Prop} {call : Call Value} :
    Guarded (fun ledger call => some (Ledger.call ledger call)) allowed (.created size)
        (calls ++ [call]) ↔
      Guarded (fun ledger call => some (Ledger.call ledger call)) allowed (.created size) calls ∧
        allowed (.after size calls) call := by
  rw [guarded_concat]
  simp only [run_ledger, Option.some.injEq, forall_eq']
  rfl

def Fair (htable : HashTable) (ledger : Ledger) : Prop :=
  ∃ chains pool puts, Stocked htable chains pool puts ledger

theorem fair_create (positive : 0 < size) (small : size < 2 ^ 31) :
    Fair (hcreateTable size) (.created size) := by
  have allocated := allocated_all size size
  refine ⟨_, List.range size, [], represents_create positive small, fun _ _ => .nil, List.nodup_nil,
    rfl, ?_⟩
  rw [List.forall₂_iff_get]
  refine ⟨by simp [Ledger.created], fun i low high => ?_⟩
  have text : (Ledger.created size).idle.get ⟨i, high⟩ = [] := by simp [Ledger.created]
  rw [text]
  refine ⟨(allocated.key _).trans ?_, List.not_mem_nil⟩
  funext a
  rw [clean_byte]
  rfl

theorem fair_answers (fair : Fair htable ledger) : Answers htable ledger := by
  obtain ⟨chains, pool, puts, stocked⟩ := fair
  refine ⟨stocked_get stocked, fun k => ?_, stocked_room stocked⟩
  obtain ⟨result, htable', -, -, -, done, found, -⟩ := stocked_del stocked k
  exact ⟨result, htable', done, found⟩

theorem fair_call {call : Call Value} (fair : Fair htable ledger) (absent : ledger.Absent call)
    (covers : ledger.Covers call) :
    ∃ htable', next intOf htable call = some htable' ∧ Fair htable' (ledger.call call) := by
  obtain ⟨chains, pool, puts, stocked⟩ := fair
  cases call with
  | put k v =>
      obtain ⟨result, htable', chains', pool', puts', done, kept⟩ :=
        stocked_put stocked absent covers v
      exact ⟨htable', congrArg (Option.map Prod.snd) done, chains', pool', puts', kept⟩
  | get k =>
      have found : next intOf htable (.get k) = some htable := by
        simp only [next, perform, stocked_get stocked k, Option.map_some]
      exact ⟨htable, found, chains, pool, puts, stocked⟩
  | del k =>
      obtain ⟨result, htable', chains', pool', puts', done, -, kept⟩ := stocked_del stocked k
      exact ⟨htable', congrArg (Option.map Prod.snd) done, chains', pool', puts', kept⟩

theorem call_other {call : Call Value} {other : Key} (apart : other ≠ call.key) :
    (ledger.call call).contents other = ledger.contents other := by
  cases call with
  | put k v =>
      rw [Ledger.call, Ledger.put]
      cases ledger.idle with
      | nil => rfl
      | cons text rest => exact Function.update_of_ne apart _ _
  | get k => rfl
  | del k =>
      rw [Ledger.call, Ledger.del]
      by_cases out : ledger.contents k = none
      · rw [if_pos out]
      · rw [if_neg out]
        exact Function.update_of_ne apart _ _

theorem fair_after (positive : 0 < size) (small : size < 2 ^ 31) (fresh : Fresh size calls)
    (covering : Covering size calls) : ∃ htable,
      run (next intOf) (hcreateTable size) calls = some htable ∧ Fair htable (.after size calls) := by
  induction calls using List.reverseRecOn with
  | nil => exact ⟨hcreateTable size, rfl, fair_create positive small⟩
  | append_singleton calls call ih =>
      obtain ⟨early, absent⟩ := guarded_last.mp fresh
      obtain ⟨early', covers⟩ := guarded_last.mp covering
      obtain ⟨htable, done, fair⟩ := ih early early'
      obtain ⟨htable', moved, fair'⟩ := fair_call fair absent covers
      refine ⟨htable', run_append.mpr ⟨htable, done, run_cons.mpr ⟨htable', moved, rfl⟩⟩, ?_⟩
      rw [Ledger.after, List.foldl_append]
      exact fair'

theorem mapLike_of_covering (positive : 0 < size) (small : size < 2 ^ 31) (fresh : Fresh size calls)
    (covering : Covering size calls) : MapLike size calls := by
  constructor
  · intro before part
    obtain ⟨htable, done, fair⟩ := fair_after positive small (guarded_first part fresh)
      (guarded_first part covering)
    exact ⟨htable, done, fair_answers fair⟩
  · intro before call part
    obtain ⟨early, absent⟩ := guarded_last.mp (guarded_first part fresh)
    obtain ⟨early', covers⟩ := guarded_last.mp (guarded_first part covering)
    obtain ⟨htable, done, fair⟩ := fair_after positive small early early'
    obtain ⟨htable', moved, fair'⟩ := fair_call fair absent covers
    refine ⟨htable, htable', done, moved, fun other apart => ?_⟩
    rw [(fair_answers fair').get, (fair_answers fair).get, call_other apart]

theorem covering_of_mapLike (positive : 0 < size) (small : size < 2 ^ 31) (fresh : Fresh size calls)
    (like : MapLike size calls) : Covering size calls := by
  induction calls using List.reverseRecOn with
  | nil => trivial
  | append_singleton calls call ih =>
      obtain ⟨early, absent⟩ := guarded_last.mp fresh
      have part : calls <+: calls ++ [call] := List.prefix_append calls [call]
      have covering : Covering size calls := ih early
        ⟨fun before shorter => like.answers before (shorter.trans part),
          fun before call' shorter => like.others before call' (shorter.trans part)⟩
      refine guarded_last.mpr ⟨covering, ?_⟩
      cases call with
      | put k v =>
          intro text top
          by_contra longer
          obtain ⟨htable, done, chains, pool, puts, stocked⟩ :=
            fair_after positive small early covering
          obtain ⟨texts, split⟩ := List.head?_eq_some_iff.mp top
          obtain ⟨htable', put, lost⟩ := stocked_stale stocked absent split (by omega) v
          obtain ⟨last, done', answers⟩ := like.answers _ List.prefix_rfl
          have moved : next intOf htable (.put k v) = some htable' :=
            congrArg (Option.map Prod.snd) put
          have same : run (next intOf) (hcreateTable size) (calls ++ [.put k v]) = some htable' :=
            run_append.mpr ⟨htable, done, run_cons.mpr ⟨htable', moved, rfl⟩⟩
          obtain rfl := Option.some.inj (same.symm.trans done')
          have told := Option.some.inj (lost.symm.trans (answers.get k))
          rw [Ledger.after, List.foldl_append, List.foldl_cons, List.foldl_nil, Ledger.call,
            Ledger.put] at told
          change Ledger.idle (calls.foldl Ledger.call (.created size)) = text :: texts at split
          rw [split] at told
          have value : (-2 : Int) = intOf v := by
            rw [told]
            simp
          simp only [intOf] at value
          omega
      | get k => trivial
      | del k => trivial

/-- The table is a map exactly as long as no key is put to a node that held a longer one. -/
theorem mapLike_iff (positive : 0 < size) (small : size < 2 ^ 31) (fresh : Fresh size calls) :
    MapLike size calls ↔ Covering size calls :=
  ⟨covering_of_mapLike positive small fresh, mapLike_of_covering positive small fresh⟩

def swapped : Key := ⟨[49, 54, 55, 55, 55, 51, 52, 51], by decide, by decide⟩

theorem mapLike_again : MapLike 1 [.put localhost 180, .del localhost, .put localhost 400] := by
  have covering : Covering 1 [.put localhost 180, .del localhost, .put localhost 400] := by decide
  exact (mapLike_iff (by decide) (by decide) (by decide)).mpr covering

/-- It is used again for a shorter key, which is then not found. -/
theorem not_mapLike_shorter :
    Fresh 1 [.put localhost 180, .del localhost, .put swapped 400] ∧
      ¬ MapLike 1 [.put localhost 180, .del localhost, .put swapped 400] := by
  have fresh : Fresh 1 [.put localhost 180, .del localhost, .put swapped 400] := by decide
  refine ⟨fresh, fun like => ?_⟩
  have covering := covering_of_mapLike (by decide) (by decide) fresh like
  exact absurd covering (by decide)

end Calls

end Hash

end FileSharing
