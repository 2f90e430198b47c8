import CellScript.Eval.Lemmas
import CellScript.Eval.Op
import Mathlib.Data.List.Forall2

/-!
# Two ways of building a dictionary

A list of keys and values, alternately, can be converted to a dictionary; and a dictionary can be
written with the same pairs. Both enter one pair after the other, so that a later value of a key
replaces an earlier one, and both end at the first key that has no text. They differ in one key
only: what is written under nil is refused, while the conversion takes nil for the key `"nil"`.

* `Value.enterAll` — entering pairs, with any conversion of keys
* `Value.entriesOfItems_flatten`, `Code.evalEntries_pairs` — both ways enter pairs
* `Value.enterAll_eq_ok`, `Value.get?_merge_last` — the dictionary that comes of it
* `Code.pairs_agree` — when both ways agree
* `Code.eval_constantsOf` — every list of pairs can be written
* `Code.nil_key_disagrees` — a pair whose key is nil
-/

namespace CellScript

open Eval

namespace Value

/-- Keys and values, alternately. -/
def flatten (pairs : List (Value × Value)) : List Value :=
  pairs.flatMap fun pair => [pair.1, pair.2]

/-- Enters pairs one after the other, with keys converted by `convert`. -/
def enterAll (convert : Value → Except Exception String) :
    List (Value × Value) → Entries Value → Except Exception (Entries Value)
  | [], entries => .ok entries
  | (k, v) :: rest, entries =>
    match convert k with
    | .ok key => enterAll convert rest (entries.insert key v)
    | .error e => .error e

/-- The pairs under their converted keys. -/
abbrev Keyed (convert : Value → Except Exception String) (pairs : List (Value × Value))
    (keyed : List (String × Value)) : Prop :=
  List.Forall₂ (fun pair entry => convert pair.1 = .ok entry.1 ∧ pair.2 = entry.2) pairs keyed

section Entering

variable {convert other : Value → Except Exception String} {pairs : List (Value × Value)}
  {entries : Entries Value}

/-- Only the conversion of the keys that occur matters. -/
theorem enterAll_congr (same : ∀ pair ∈ pairs, convert pair.1 = other pair.1) :
    enterAll convert pairs entries = enterAll other pairs entries := by
  induction pairs generalizing entries with
  | nil => rfl
  | cons pair rest ih =>
    obtain ⟨first, later⟩ := List.forall_mem_cons.mp same
    rw [enterAll, enterAll, first]
    cases other pair.1 with
    | ok key => exact ih later
    | error e => rfl

/-- Entering ends at the first key that cannot be converted. -/
theorem enterAll_failing {before after : List (Value × Value)} {k v : Value} {e : Exception}
    (fine : ∀ pair ∈ before, ∃ key, convert pair.1 = .ok key) (fails : convert k = .error e) :
    enterAll convert (before ++ (k, v) :: after) entries = .error e := by
  induction before generalizing entries with
  | nil => rw [List.nil_append, enterAll, fails]
  | cons pair rest ih =>
    obtain ⟨⟨key, first⟩, later⟩ := List.forall_mem_cons.mp fine
    rw [List.cons_append, enterAll, first]
    exact ih later

/-- What is entered stands under the converted keys, one pair after the other. -/
theorem enterAll_eq_ok {all : Entries Value} (run : enterAll convert pairs entries = .ok all) :
    ∃ keyed, Keyed convert pairs keyed ∧ all = entries.merge keyed := by
  induction pairs generalizing entries with
  | nil =>
    cases run
    exact ⟨[], .nil, rfl⟩
  | cons pair rest ih =>
    rw [enterAll] at run
    cases hk : convert pair.1 with
    | error e =>
      rw [hk] at run
      cases run
    | ok key =>
      rw [hk] at run
      obtain ⟨keyed, keys, same⟩ := ih run
      exact ⟨(key, pair.2) :: keyed, .cons ⟨hk, rfl⟩ keys, same⟩

end Entering

/-- Under each key stands the last value that was entered. -/
theorem get?_merge_last (entries : Entries Value) (keyed : List (String × Value)) (key : String) :
    (entries.merge keyed).get? key =
      ((keyed.reverse.find? fun entry => entry.1 == key).map (·.2)).or (entries.get? key) := by
  induction keyed generalizing entries with
  | nil => rfl
  | cons entry rest ih =>
    change ((entries.insert entry.1 entry.2).merge rest).get? key = _
    rw [ih, Entries.get?_insert, List.reverse_cons, List.find?_append]
    by_cases same : entry.1 = key
    · cases List.find? _ rest.reverse <;> simp [same]
    · cases List.find? _ rest.reverse <;> simp [same]

/-! ## Keys -/

theorem toKey_nil : toKey nil = .error .nilKey := rfl

/-- Every other value is a key if it has a text. -/
theorem toKey_of_not_nil {v : Value} (h : v.isNil = false) : v.toKey = v.toPlainText := by
  rw [toKey, h, if_neg Bool.false_ne_true]

/-! ## The conversion of a list -/

theorem flatten_cons (pair : Value × Value) (rest : List (Value × Value)) :
    flatten (pair :: rest) = pair.1 :: pair.2 :: flatten rest :=
  rfl

theorem length_flatten (pairs : List (Value × Value)) :
    (flatten pairs).length = 2 * pairs.length := by
  induction pairs with
  | nil => rfl
  | cons pair rest ih =>
    rw [flatten_cons, List.length_cons, List.length_cons, List.length_cons, ih]
    omega

/-- The conversion of a list enters pairs. -/
theorem entriesOfItems_flatten (pairs : List (Value × Value)) (entries : Entries Value) :
    entriesOfItems (flatten pairs) entries = enterAll toPlainText pairs entries := by
  induction pairs generalizing entries with
  | nil => rfl
  | cons pair rest ih =>
    rw [flatten_cons, entriesOfItems, enterAll]
    cases pair.1.toPlainText with
    | ok key => exact ih _
    | error e => rfl

/-- A list of pairs becomes the dictionary in which they are entered. -/
theorem cast_flatten (fresh id : ObjectId) (pairs : List (Value × Value)) :
    (list id (flatten pairs)).cast fresh .dict =
      (enterAll toPlainText pairs []).map (dict fresh) := by
  have even : ¬((flatten pairs).length % 2 != 0) = true := by
    rw [length_flatten]
    simp
  show (toEntries (list id (flatten pairs))).map (dict fresh) = _
  rw [toEntries, if_neg even, entriesOfItems_flatten]

end Value

/-! ## Dictionaries as they are written -/

namespace Code

variable {supply : Supply} {space : SpaceId}

/-- Operations of a list, keys and values alternately. -/
def itemsOf (parts : List (Op × Op)) : List Item :=
  parts.flatMap fun part => [.value part.1, .value part.2]

/-- The same operations as the pairs of a dictionary. -/
def entriesOf (parts : List (Op × Op)) : List Entry :=
  parts.map fun part => .pair part.1 part.2

/-- A list of pairs is evaluated pair by pair. -/
theorem evalItems_pairs {part : Op × Op} {rest : List (Op × Op)} {items : List Value}
    {M M' : Machine} (run : evalItems supply space (itemsOf (part :: rest)) M = .ok items M') :
    ∃ k M₁ v M₂ more, part.1.eval supply space M = .ok k M₁ ∧ part.2.eval supply space M₁ =
      .ok v M₂ ∧ evalItems supply space (itemsOf rest) M₂ = .ok more M' ∧
        items = k :: v :: more := by
  change evalItems supply space (.value part.1 :: .value part.2 :: itemsOf rest) M = _ at run
  rw [evalItems, bind_eq_ok] at run
  obtain ⟨k, M₁, key, tail⟩ := run
  obtain ⟨others, M₃, second, made⟩ := bind_eq_ok.mp tail
  rw [evalItems, bind_eq_ok] at second
  obtain ⟨v, M₂, value, tail⟩ := second
  obtain ⟨more, M₄, third, made'⟩ := bind_eq_ok.mp tail
  obtain ⟨rfl, rfl⟩ := pure_eq_ok.mp made
  obtain ⟨rfl, rfl⟩ := pure_eq_ok.mp made'
  exact ⟨k, M₁, v, M₂, more, key, value, third, rfl⟩

/-- **A written dictionary enters pairs.** Where its keys and values, one after the other, evaluate
to those of some pairs, it comes to the dictionary in which these are entered, or ends with the
exception of the first key that is none. -/
theorem evalEntries_pairs {parts : List (Op × Op)} {pairs : List (Value × Value)} {M M' : Machine}
    (given : evalItems supply space (itemsOf parts) M = .ok (Value.flatten pairs) M')
    (entries : Entries Value) :
    match Value.enterAll Value.toKey pairs entries with
    | .ok all => evalEntries supply space entries (entriesOf parts) M = .ok all M'
    | .error e => ∃ M'', evalEntries supply space entries (entriesOf parts) M =
        .error (.raised e) M'' := by
  induction parts generalizing pairs M entries with
  | nil =>
    change evalItems supply space [] M = _ at given
    rw [evalItems, pure_eq_ok] at given
    obtain ⟨empty, rfl⟩ := given
    cases pairs with
    | nil =>
      show evalEntries supply space entries [] M = _
      rw [evalEntries]
      rfl
    | cons pair rest => cases empty
  | cons part rest ih =>
    obtain ⟨k, M₁, v, M₂, more, key, value, run, items⟩ := evalItems_pairs given
    cases pairs with
    | nil => cases items
    | cons pair others =>
      obtain ⟨rfl, rfl, rfl⟩ : pair.1 = k ∧ pair.2 = v ∧ Value.flatten others = more := by
        simpa only [Value.flatten_cons, List.cons.injEq] using items
      have unfolded : evalEntries supply space entries (entriesOf (part :: rest)) M =
          (do
            let key ← ofExcept pair.1.toKey
            let value ← part.2.eval supply space
            evalEntries supply space (entries.insert key value) (entriesOf rest)) M₁ := by
        show evalEntries supply space entries (.pair part.1 part.2 :: entriesOf rest) M = _
        rw [evalEntries, bind_of_ok key]
      rw [Value.enterAll, unfolded]
      cases converted : pair.1.toKey with
      | error e => exact ⟨M₁, rfl⟩
      | ok text =>
        rw [ofExcept_ok, bind_of_ok (pure_apply text M₁), bind_of_ok value]
        exact ih run _

/-- **Both ways of building a dictionary agree where no key is nil**: they come to the same
dictionary, in which the last value of each key counts, or end with the same exception. Where a key
is nil, the written dictionary ends with an error that says so, unless a key before it has no
text. -/
theorem pairs_agree {parts : List (Op × Op)} {pairs : List (Value × Value)} {id : ObjectId}
    {M M' : Machine}
    (given : (Action.list (itemsOf parts)).eval supply space M =
      .ok (.list id (Value.flatten pairs)) M')
    (fresh : ObjectId) :
    ((∀ pair ∈ pairs, pair.1.isNil = false) →
      (∃ all i M'', (Value.list id (Value.flatten pairs)).cast fresh .dict = .ok (.dict fresh all) ∧
        (Action.dict (entriesOf parts)).eval supply space M = .ok (.dict i all) M'' ∧
        ∃ keyed, Value.Keyed Value.toPlainText pairs keyed ∧ ∀ key,
          Entries.get? all key = (keyed.reverse.find? fun entry => entry.1 == key).map (·.2)) ∨
      ∃ e M'', (Value.list id (Value.flatten pairs)).cast fresh .dict = .error e ∧
        (Action.dict (entriesOf parts)).eval supply space M = .error (.raised e) M'') ∧
    ∀ before v after, pairs = before ++ (.nil, v) :: after →
      (∀ pair ∈ before, ∃ key, pair.1.toKey = .ok key) →
        ∃ M'', (Action.dict (entriesOf parts)).eval supply space M =
          .error (.raised .nilKey) M'' := by
  obtain ⟨M₁, items⟩ :
      ∃ M₁, evalItems supply space (itemsOf parts) M = .ok (Value.flatten pairs) M₁ := by
    rw [Action.eval, bind_eq_ok] at given
    obtain ⟨vs, M₁, run, made⟩ := given
    cases made
    exact ⟨M₁, run⟩
  have literal : ∀ {e M''}, evalEntries supply space [] (entriesOf parts) M =
      .error (.raised e) M'' → (Action.dict (entriesOf parts)).eval supply space M =
        .error (.raised e) M'' := by
    intro e M'' run
    rw [Action.eval, bind_of_error run]
  have written := evalEntries_pairs items []
  refine ⟨fun keys => ?_, fun before v after split fine => ?_⟩
  · have same : Value.enterAll Value.toPlainText pairs [] = Value.enterAll Value.toKey pairs [] :=
      Value.enterAll_congr fun pair mem => (Value.toKey_of_not_nil (keys pair mem)).symm
    rw [Value.cast_flatten]
    cases entered : Value.enterAll Value.toPlainText pairs [] with
    | ok all =>
      rw [← same, entered] at written
      obtain ⟨keyed, under, rfl⟩ := Value.enterAll_eq_ok entered
      refine .inl ⟨_, M₁.memory.newObject.1, ⟨M₁.memory.newObject.2, M₁.context⟩, rfl, ?_, keyed,
        under, fun key => ?_⟩
      · rw [Action.eval, bind_of_ok written]
        rfl
      · rw [Value.get?_merge_last]
        exact Option.or_none ..
    | error e =>
      rw [← same, entered] at written
      obtain ⟨M'', run⟩ := written
      exact .inr ⟨e, M'', rfl, literal run⟩
  · subst split
    rw [Value.enterAll_failing fine Value.toKey_nil] at written
    obtain ⟨M'', run⟩ := written
    exact ⟨M'', literal run⟩

/-- The values of pairs as constants. -/
def constantsOf (pairs : List (Value × Value)) : List (Op × Op) :=
  pairs.map fun pair => (⟨default, .constant pair.1⟩, ⟨default, .constant pair.2⟩)

theorem Op.eval_constant (v : Value) (M : Machine) :
    Op.eval .none space ⟨default, .constant v⟩ M = .ok v M := by
  rw [Op.eval, Action.eval]
  rfl

/-- Every list of pairs can be written, with constants. -/
theorem eval_constantsOf (pairs : List (Value × Value)) (M : Machine) :
    (Action.list (itemsOf (constantsOf pairs))).eval .none space M =
      newList (Value.flatten pairs) M := by
  have items : evalItems .none space (itemsOf (constantsOf pairs)) M =
      .ok (Value.flatten pairs) M := by
    induction pairs with
    | nil =>
      show evalItems .none space [] M = _
      rw [evalItems]
      rfl
    | cons pair rest ih =>
      show evalItems .none space (.value ⟨default, .constant pair.1⟩ ::
        .value ⟨default, .constant pair.2⟩ :: itemsOf (constantsOf rest)) M = _
      rw [evalItems, bind_of_ok (Op.eval_constant pair.1 M), evalItems, bind_apply,
        bind_of_ok (Op.eval_constant pair.2 M), bind_apply, ih]
      rfl
  rw [Action.eval, bind_of_ok items]

/-- The theorem at two pairs with the same key, once as a long and once as a string. -/
theorem pairs_agree_override :
    let pairs : List (Value × Value) := [(.long 1, .string "a"), (.string "1", .string "b")]
    (∃ M', (Action.list (itemsOf (constantsOf pairs))).eval .none 0 default =
      .ok (.list 0 (Value.flatten pairs)) M') ∧
    (∀ pair ∈ pairs, pair.1.isNil = false) ∧
    ((∃ all i M'', (Value.list 0 (Value.flatten pairs)).cast 1 .dict = .ok (.dict 1 all) ∧
      (Action.dict (entriesOf (constantsOf pairs))).eval .none 0 default = .ok (.dict i all) M'' ∧
      ∃ keyed, Value.Keyed Value.toPlainText pairs keyed ∧ ∀ key,
        Entries.get? all key = (keyed.reverse.find? fun entry => entry.1 == key).map (·.2)) ∨
    ∃ e M'', (Value.list 0 (Value.flatten pairs)).cast 1 .dict = .error e ∧
      (Action.dict (entriesOf (constantsOf pairs))).eval .none 0 default =
        .error (.raised e) M'') := by
  intro pairs
  have keys : ∀ pair ∈ pairs, pair.1.isNil = false := by decide
  have given := @eval_constantsOf 0 pairs default
  exact ⟨⟨_, given⟩, keys, (pairs_agree given 1).1 keys⟩

/-- **A list whose first key is nil** becomes a dictionary with the key `"nil"`. Written as a
dictionary, the same pair is an error. -/
theorem nil_key_disagrees :
    (Value.list 0 [.nil, .long 1]).cast 1 .dict = .ok (.dict 1 [("nil", .long 1)]) ∧
      (Action.dict (entriesOf (constantsOf [(.nil, .long 1)]))).eval .none 0 default =
        .error (.raised .nilKey) default ∧
      Exception.nilKey.code = .nilError := by
  have entries : evalEntries .none 0 [] (entriesOf (constantsOf [(.nil, .long 1)])) default =
      .error (.raised .nilKey) default := by
    show evalEntries .none 0 [] [.pair ⟨default, .constant .nil⟩
      ⟨default, .constant (.long 1)⟩] default = _
    rw [evalEntries, bind_of_ok (Op.eval_constant .nil default)]
    rfl
  refine ⟨rfl, ?_, rfl⟩
  rw [Action.eval, bind_of_error entries]

end Code

end CellScript
