import CellScript.Eval.Lemmas
import CellScript.Eval.Op
import CellScript.Proofs.Code.Ok

/-!
# What it means to match

A pattern takes the subject apart. For a list the parts make up the subject again: nothing is left
out and nothing is taken twice. So it is for a dictionary with a rest, and for a closed dictionary
whose pattern names no key twice. A closed pattern that names a key twice counts that key twice, and
then an entry under no named key can be left out (`Pattern.captures_repeated_key`).
`Pattern.Matches` says all this as a relation between the pattern, the subject and the bindings,
together with the machines before and after, because patterns evaluate expressions.

* `Code.Pattern.Matches`, `Code.Shape.Matches` — the relation, with one rule for each kind of
  pattern
* `Entries.Splits` — a dictionary is split into the entries under some keys and all others
* `Code.Pattern.captures_eq_some_iff` — a pattern captures the bindings if and only if it matches
  with them
* `Code.Pattern.Matches.slots_eq` — there is one binding for each slot that the pattern names
-/

namespace CellScript

/-! ## Dictionaries in two parts -/

/-- A dictionary is split into the entries under some keys and all others, each in the order in
which they stood. -/
structure Entries.Splits {α : Type} (keys : List String)
    (found named others : Entries α) : Prop where
  perm : (named ++ others).Perm found
  ordered : named.Sublist found ∧ others.Sublist found
  named_mem : ∀ entry ∈ named, entry.1 ∈ keys
  others_not_mem : ∀ entry ∈ others, entry.1 ∉ keys

namespace Entries

variable {α : Type} {keys : List String} {found named others : Entries α}

/-- No key occurs twice. -/
theorem Sorted.nodup_keys (sorted : found.Sorted) : (found.map (·.1)).Nodup := by
  refine List.pairwise_map.mpr (sorted.imp fun lt same => ?_)
  rw [same] at lt
  exact String.lt_irrefl _ lt

theorem splits_filter (keys : List String) (found : Entries α) :
    Splits keys found (found.filter fun entry => decide (entry.1 ∈ keys))
      (found.filter fun entry => !decide (entry.1 ∈ keys)) where
  perm := List.filter_append_perm ..
  ordered := ⟨List.filter_sublist, List.filter_sublist⟩
  named_mem entry mem := of_decide_eq_true (List.mem_filter.mp mem).2
  others_not_mem entry mem := by simpa using (List.mem_filter.mp mem).2

/-- There is only one way to split a dictionary. -/
theorem Splits.others_eq (h : Splits keys found named others) :
    others = found.filter fun entry => !decide (entry.1 ∈ keys) := by
  have all : others.filter (fun entry => !decide (entry.1 ∈ keys)) = others :=
    List.filter_eq_self.mpr fun entry mem => by simpa using h.others_not_mem entry mem
  have none : named.filter (fun entry => !decide (entry.1 ∈ keys)) = [] :=
    List.filter_eq_nil_iff.mpr fun entry mem => by simpa using h.named_mem entry mem
  have sub := h.ordered.2.filter fun entry => !decide (entry.1 ∈ keys)
  have same := (h.perm.filter fun entry => !decide (entry.1 ∈ keys)).length_eq
  rw [List.filter_append, none, List.nil_append, all] at same
  rw [all] at sub
  exact sub.eq_of_length same

end Entries

namespace Eval

/-- What is left of a container goes to a slot, as a new object; without a slot nothing happens. -/
inductive BindsRest (rest : ObjectId → Value) (M : Machine) : Option Nat → Bindings → Machine → Prop
  | skip : BindsRest rest M none [] M
  | bind (slot : Nat) : BindsRest rest M (some slot) [(slot, rest M.memory.objects)]
      { M with memory := M.memory.newObject.2 }

variable {slot : Option Nat} {M M' : Machine} {b : Bindings}

theorem bindList_eq_ok_iff {items : List Value} :
    bindList slot items M = .ok b M' ↔ BindsRest (.list · items) M slot b M' := by
  cases slot with
  | none => exact ⟨fun h => (by cases h; exact .skip), fun h => by cases h; rfl⟩
  | some slot => exact ⟨fun h => (by cases h; exact .bind slot), fun h => by cases h; rfl⟩

theorem bindDict_eq_ok_iff {entries : Entries Value} :
    bindDict slot entries M = .ok b M' ↔ BindsRest (.dict · entries) M slot b M' := by
  cases slot with
  | none => exact ⟨fun h => (by cases h; exact .skip), fun h => by cases h; rfl⟩
  | some slot => exact ⟨fun h => (by cases h; exact .bind slot), fun h => by cases h; rfl⟩

theorem BindsRest.slots_eq {rest : ObjectId → Value} (h : BindsRest rest M slot b M') :
    b.map (·.1) = slot.toList := by
  cases h <;> rfl

theorem matched_eq_some_iff {holds : Bool} : matched holds = some b ↔ holds = true ∧ b = [] := by
  cases holds <;> simp [matched, eq_comm]

end Eval

namespace Code

open Eval

/-! ## The relation -/

section Matches

variable (supply : Supply) (space : SpaceId)

mutual

/-- The pattern matches the subject with these bindings, and leads from one machine to another. The
whole subject is bound last. -/
inductive Pattern.Matches : Pattern → Value → Machine → Bindings → Machine → Prop
  | intro {shape : Shape} {whole : Option Nat} {v : Value} {b : Bindings} {M M' : Machine}
      (parts : Shape.Matches shape v M b M') :
      Pattern.Matches ⟨shape, whole⟩ v M (b ++ whole.toList.map fun slot => (slot, v)) M'

/-- How a subject is taken apart. -/
inductive Shape.Matches : Shape → Value → Machine → Bindings → Machine → Prop
  /-- An expression that gives no function is compared with the subject. -/
  | equal {op : Op} {v expected : Value} {M M' : Machine}
      (value : op.eval supply space M = .ok expected M')
      (plain : ∀ id signature, expected ≠ .function id signature)
      (same : v.equals expected = true) :
      Shape.Matches (.expr op) v M [] M'
  /-- An expression that gives a function is asked about the subject. -/
  | accepted {op : Op} {v w : Value} {id : FunctionId} {signature : Signature} {M M₁ M' : Machine}
      (value : op.eval supply space M = .ok (.function id signature) M₁)
      (answer : supply (.call id [v]) M₁ = .ok w M') (truthy : w.truthy = true) :
      Shape.Matches (.expr op) v M [] M'
  | any {v : Value} {M : Machine} : Shape.Matches .any v M [] M
  | ofType {ty : Ty} {v : Value} {M : Machine} (holds : matchesType v ty = true) :
      Shape.Matches (.ofType ty) v M [] M
  | list {items : List Pattern} {id : ObjectId} {values : List Value} {b : Bindings}
      {M M' : Machine} (each : AllMatch items values M b M') :
      Shape.Matches (.list items) (.list id values) M b M'
  /-- What the patterns match, and then the tail, are the subject. -/
  | headTail {head : List Pattern} {tail : Option Nat} {id : ObjectId} {front back : List Value}
      {b more : Bindings} {M M₁ M' : Machine} (each : AllMatch head front M b M₁)
      (rest : BindsRest (.list · back) M₁ tail more M') :
      Shape.Matches (.headTail head tail) (.list id (front ++ back)) M (b ++ more) M'
  /-- The initial part, and then what the patterns match, are the subject. -/
  | initLast {init : Option Nat} {last : List Pattern} {id : ObjectId} {front back : List Value}
      {b more : Bindings} {M M₁ M' : Machine} (each : AllMatch last back M b M₁)
      (rest : BindsRest (.list · front) M₁ init more M') :
      Shape.Matches (.initLast init last) (.list id (front ++ back)) M (b ++ more) M'
  /-- What the patterns match before and behind the middle are the subject, together with the
  middle. -/
  | middle {head last : List Pattern} {mid : Option Nat} {id : ObjectId}
      {front between back : List Value} {first second more : Bindings} {M M₁ M₂ M' : Machine}
      (eachFirst : AllMatch head front M first M₁) (eachLast : AllMatch last back M₁ second M₂)
      (rest : BindsRest (.list · between) M₂ mid more M') :
      Shape.Matches (.middle head mid last) (.list id (front ++ between ++ back)) M
        (first ++ second ++ more) M'
  /-- As many entries as the pattern names. -/
  | dict {entries : List KeyPattern} {id : ObjectId} {found : Entries Value} {b : Bindings}
      {M M' : Machine} (count : found.length = entries.length)
      (each : EntriesMatch found entries M b M') :
      Shape.Matches (.dict entries) (.dict id found) M b M'
  /-- The entries that the pattern names and the rest are the subject. -/
  | openDict {entries : List KeyPattern} {rest : Option Nat} {id : ObjectId}
      {found named others : Entries Value} {b more : Bindings} {M M₁ M' : Machine}
      (each : EntriesMatch found entries M b M₁)
      (splits : Entries.Splits (entries.map (·.key)) found named others)
      (left : BindsRest (.dict · others) M₁ rest more M') :
      Shape.Matches (.openDict entries rest) (.dict id found) M (b ++ more) M'

/-- As many values as patterns, and each pattern matches its value. -/
inductive AllMatch : List Pattern → List Value → Machine → Bindings → Machine → Prop
  | nil {M : Machine} : AllMatch [] [] M [] M
  | cons {p : Pattern} {rest : List Pattern} {v : Value} {values : List Value} {b more : Bindings}
      {M M₁ M' : Machine} (first : Pattern.Matches p v M b M₁)
      (later : AllMatch rest values M₁ more M') :
      AllMatch (p :: rest) (v :: values) M (b ++ more) M'

/-- Every key is found, and each pattern matches the value under its key. -/
inductive EntriesMatch : Entries Value → List KeyPattern → Machine → Bindings → Machine → Prop
  | nil {found : Entries Value} {M : Machine} : EntriesMatch found [] M [] M
  | cons {found : Entries Value} {key : String} {p : Pattern} {rest : List KeyPattern} {v : Value}
      {b more : Bindings} {M M₁ M' : Machine} (value : found.get? key = some v)
      (first : Pattern.Matches p v M b M₁) (later : EntriesMatch found rest M₁ more M') :
      EntriesMatch found (⟨key, p⟩ :: rest) M (b ++ more) M'

end

end Matches

variable {supply : Supply} {space : SpaceId}

/-! ## Captures of containers, given in parts -/

/-- Values behind the last pattern play no part. -/
theorem capturesOfAll_append {front : List Value} (back : List Value) {ps : List Pattern}
    (same : front.length = ps.length) :
    capturesOfAll supply space (front ++ back) ps = capturesOfAll supply space front ps := by
  induction ps generalizing front with
  | nil => rw [capturesOfAll, capturesOfAll]
  | cons p rest ih =>
    cases front with
    | nil => cases same
    | cons v front =>
      rw [List.cons_append, capturesOfAll, capturesOfAll]
      simp only [ih (Nat.succ.inj same)]

section Parts

variable {head last : List Pattern} {slot : Option Nat} (id : ObjectId)
  {front between back : List Value}

theorem Shape.captures_headTail (same : front.length = head.length) (back : List Value) :
    (Shape.headTail head slot).captures supply space (.list id (front ++ back)) = (do
      match ← capturesOfAll supply space front head with
      | none => return none
      | some bindings => return some (bindings ++ (← bindList slot back))) := by
  generalize parts :
      (Shape.headTail head slot).captures supply space (.list id (front ++ back)) = found
  rw [Shape.captures, if_neg (by rw [List.length_append]; omega), capturesOfAll_append back same,
    List.drop_left' same] at parts
  exact parts.symm

theorem Shape.captures_initLast (same : back.length = last.length) (front : List Value) :
    (Shape.initLast slot last).captures supply space (.list id (front ++ back)) = (do
      match ← capturesOfAll supply space back last with
      | none => return none
      | some bindings => return some (bindings ++ (← bindList slot front))) := by
  have split : front.length = (front ++ back).length - last.length := by
    rw [List.length_append]
    omega
  generalize parts :
      (Shape.initLast slot last).captures supply space (.list id (front ++ back)) = found
  rw [Shape.captures, if_neg (by rw [List.length_append]; omega)] at parts
  simp only [List.drop_left' split, List.take_left' split] at parts
  exact parts.symm

theorem Shape.captures_middle (sameHead : front.length = head.length)
    (sameLast : back.length = last.length) (between : List Value) :
    (Shape.middle head slot last).captures supply space (.list id (front ++ between ++ back)) = (do
      match ← capturesOfAll supply space front head with
      | none => return none
      | some first =>
        match ← capturesOfAll supply space back last with
        | none => return none
        | some second => return some (first ++ second ++ (← bindList slot between))) := by
  have split : (front ++ between).length = (front ++ between ++ back).length - last.length := by
    simp only [List.length_append]
    omega
  have whole : capturesOfAll supply space (front ++ between ++ back) head =
      capturesOfAll supply space front head := by
    rw [List.append_assoc, capturesOfAll_append _ sameHead]
  generalize parts : (Shape.middle head slot last).captures supply space
    (.list id (front ++ between ++ back)) = found
  rw [Shape.captures, if_neg (by simp only [List.length_append]; omega), whole] at parts
  simp only [List.drop_left' split, List.take_left' split, List.drop_left' sameHead] at parts
  exact parts.symm

end Parts

/-- What an open pattern leaves over are the entries that it does not name. -/
theorem Shape.captures_openDict {entries : List KeyPattern} {slot : Option Nat} (id : ObjectId)
    {found named others : Entries Value}
    (splits : Entries.Splits (entries.map (·.key)) found named others) :
    (Shape.openDict entries slot).captures supply space (.dict id found) = (do
      match ← capturesOfEntries supply space found entries with
      | none => return none
      | some bindings => return some (bindings ++ (← bindDict slot others))) := by
  have same :
      (found.filter fun entry => !entries.any fun named => named.key == entry.1) = others := by
    rw [splits.others_eq]
    refine List.filter_congr fun entry _ => congrArg (! ·) ?_
    rw [Bool.eq_iff_iff]
    simp
  generalize parts : (Shape.openDict entries slot).captures supply space (.dict id found) = given
  rw [Shape.captures] at parts
  simp only [same] at parts
  exact parts.symm

/-! ## Captures are matches -/

mutual

/-- **What is captured matches.** -/
theorem Pattern.matches_of_captures : ∀ (p : Pattern) {v : Value} {b : Bindings} {M M' : Machine},
    p.captures supply space v M = .ok (some b) M' → p.Matches supply space v M b M'
  | ⟨shape, whole⟩, v, b, M, M', h => by
    rw [Pattern.captures] at h
    obtain ⟨parts, M₁, run, h⟩ := bind_eq_ok.mp h
    cases parts with
    | none => cases h
    | some parts =>
      cases h
      exact .intro (Shape.matches_of_captures shape run)

theorem Shape.matches_of_captures : ∀ (shape : Shape) {v : Value} {b : Bindings} {M M' : Machine},
    shape.captures supply space v M = .ok (some b) M' → shape.Matches supply space v M b M'
  | .expr op, v, b, M, M', h => by
    rw [Shape.captures] at h
    obtain ⟨expected, M₁, value, h⟩ := bind_eq_ok.mp h
    cases expected with
    | function id signature =>
      obtain ⟨w, M₂, answer, h⟩ := bind_eq_ok.mp h
      obtain ⟨found, rfl⟩ := pure_eq_ok.mp h
      obtain ⟨truthy, rfl⟩ := matched_eq_some_iff.mp found
      exact .accepted value answer truthy
    | _ =>
      obtain ⟨found, rfl⟩ := pure_eq_ok.mp h
      obtain ⟨same, rfl⟩ := matched_eq_some_iff.mp found
      exact .equal value (fun _ _ => nofun) same
  | .any, v, b, M, M', h => by
    cases h
    exact .any
  | .ofType ty, v, b, M, M', h => by
    obtain ⟨found, rfl⟩ := pure_eq_ok.mp h
    obtain ⟨holds, rfl⟩ := matched_eq_some_iff.mp found
    exact .ofType holds
  | .list items, v, b, M, M', h => by
    cases v with
    | list id values =>
      rw [Shape.captures] at h
      split at h
      · next same => exact .list (allMatch_of_captures items (eq_of_beq same) h)
      · cases h
    | _ => cases h
  | .headTail head tail, v, b, M, M', h => by
    cases v with
    | list id values =>
      by_cases short : values.length < head.length
      · rw [Shape.captures, if_pos short] at h
        cases h
      obtain ⟨front, back, rfl, same⟩ : ∃ front back, values = front ++ back ∧
          front.length = head.length :=
        ⟨_, _, (List.take_append_drop head.length values).symm, by rw [List.length_take]; omega⟩
      rw [Shape.captures_headTail id same] at h
      obtain ⟨each, M₁, run, h⟩ := bind_eq_ok.mp h
      cases each with
      | none => cases h
      | some each =>
        obtain ⟨more, M₂, rest, h⟩ := bind_eq_ok.mp h
        cases h
        exact .headTail (allMatch_of_captures head same run) (bindList_eq_ok_iff.mp rest)
    | _ => cases h
  | .initLast init last, v, b, M, M', h => by
    cases v with
    | list id values =>
      by_cases short : values.length < last.length
      · rw [Shape.captures, if_pos short] at h
        cases h
      obtain ⟨front, back, rfl, same⟩ : ∃ front back, values = front ++ back ∧
          back.length = last.length :=
        ⟨_, _, (List.take_append_drop (values.length - last.length) values).symm,
          by rw [List.length_drop]; omega⟩
      rw [Shape.captures_initLast id same] at h
      obtain ⟨each, M₁, run, h⟩ := bind_eq_ok.mp h
      cases each with
      | none => cases h
      | some each =>
        obtain ⟨more, M₂, rest, h⟩ := bind_eq_ok.mp h
        cases h
        exact .initLast (allMatch_of_captures last same run) (bindList_eq_ok_iff.mp rest)
    | _ => cases h
  | .middle head mid last, v, b, M, M', h => by
    cases v with
    | list id values =>
      by_cases short : values.length < head.length + last.length
      · rw [Shape.captures, if_pos short] at h
        cases h
      obtain ⟨front, between, back, rfl, sameHead, sameLast⟩ : ∃ front between back,
          values = front ++ between ++ back ∧ front.length = head.length ∧
            back.length = last.length := by
        refine ⟨values.take head.length, (values.drop head.length).take
          (values.length - head.length - last.length), values.drop (values.length - last.length),
            ?_, ?_, ?_⟩
        · have behind : values.drop (values.length - last.length) =
              (values.drop head.length).drop (values.length - head.length - last.length) := by
            rw [List.drop_drop]
            congr 1
            omega
          rw [behind, List.append_assoc, List.take_append_drop, List.take_append_drop]
        · rw [List.length_take]
          omega
        · rw [List.length_drop]
          omega
      rw [Shape.captures_middle id sameHead sameLast] at h
      obtain ⟨first, M₁, run, h⟩ := bind_eq_ok.mp h
      cases first with
      | none => cases h
      | some first =>
        obtain ⟨second, M₂, run', h⟩ := bind_eq_ok.mp h
        cases second with
        | none => cases h
        | some second =>
          obtain ⟨more, M₃, rest, h⟩ := bind_eq_ok.mp h
          cases h
          exact .middle (allMatch_of_captures head sameHead run)
            (allMatch_of_captures last sameLast run') (bindList_eq_ok_iff.mp rest)
    | _ => cases h
  | .dict entries, v, b, M, M', h => by
    cases v with
    | dict id found =>
      rw [Shape.captures] at h
      split at h
      · next same => exact .dict (eq_of_beq same) (entriesMatch_of_captures entries h)
      · cases h
    | _ => cases h
  | .openDict entries rest, v, b, M, M', h => by
    cases v with
    | dict id found =>
      have splits := Entries.splits_filter (entries.map (·.key)) found
      rw [Shape.captures_openDict id splits] at h
      obtain ⟨each, M₁, run, h⟩ := bind_eq_ok.mp h
      cases each with
      | none => cases h
      | some each =>
        obtain ⟨more, M₂, left, h⟩ := bind_eq_ok.mp h
        cases h
        exact .openDict (entriesMatch_of_captures entries run) splits (bindDict_eq_ok_iff.mp left)
    | _ => cases h

theorem allMatch_of_captures : ∀ (ps : List Pattern) {values : List Value} {b : Bindings}
    {M M' : Machine}, values.length = ps.length →
    capturesOfAll supply space values ps M = .ok (some b) M' →
      AllMatch supply space ps values M b M'
  | [], values, b, M, M', same, h => by
    cases List.length_eq_zero_iff.mp same
    cases h
    exact .nil
  | p :: rest, [], b, M, M', same, h => by cases same
  | p :: rest, v :: values, b, M, M', same, h => by
    rw [capturesOfAll] at h
    obtain ⟨first, M₁, run, h⟩ := bind_eq_ok.mp h
    cases first with
    | none => cases h
    | some first =>
      obtain ⟨more, M₂, later, h⟩ := bind_eq_ok.mp h
      cases more with
      | none => cases h
      | some more =>
        cases h
        exact .cons (Pattern.matches_of_captures p run)
          (allMatch_of_captures rest (Nat.succ.inj same) later)

theorem entriesMatch_of_captures :
    ∀ (entries : List KeyPattern) {found : Entries Value} {b : Bindings}
    {M M' : Machine}, capturesOfEntries supply space found entries M = .ok (some b) M' →
    EntriesMatch supply space found entries M b M'
  | [], found, b, M, M', h => by
    cases h
    exact .nil
  | ⟨key, p⟩ :: rest, found, b, M, M', h => by
    rw [capturesOfEntries] at h
    cases value : found.get? key with
    | none =>
      rw [value] at h
      cases h
    | some v =>
      rw [value] at h
      obtain ⟨first, M₁, run, h⟩ := bind_eq_ok.mp h
      cases first with
      | none => cases h
      | some first =>
        obtain ⟨more, M₂, later, h⟩ := bind_eq_ok.mp h
        cases more with
        | none => cases h
        | some more =>
          cases h
          exact .cons value (Pattern.matches_of_captures p run)
            (entriesMatch_of_captures rest later)

end

/-! ## Matches are captured -/

/-- There are as many values as patterns. -/
theorem AllMatch.length_eq {ps : List Pattern} {values : List Value} {b : Bindings} {M M' : Machine}
    (h : AllMatch supply space ps values M b M') : values.length = ps.length := by
  induction ps generalizing values b M with
  | nil =>
    cases h
    rfl
  | cons p rest ih =>
    cases h with
    | cons _ later => rw [List.length_cons, List.length_cons, ih later]

mutual

/-- **What matches is captured.** -/
theorem Pattern.captures_of_matches : ∀ (p : Pattern) {v : Value} {b : Bindings} {M M' : Machine},
    p.Matches supply space v M b M' → p.captures supply space v M = .ok (some b) M'
  | ⟨shape, whole⟩, _, _, _, _, .intro parts => by
    rw [Pattern.captures, bind_of_ok (Shape.captures_of_matches shape parts)]
    rfl

theorem Shape.captures_of_matches : ∀ (shape : Shape) {v : Value} {b : Bindings} {M M' : Machine},
    shape.Matches supply space v M b M' → shape.captures supply space v M = .ok (some b) M'
  | .expr op, v, _, _, _, @Shape.Matches.equal _ _ _ _ expected _ _ value plain same => by
    rw [Shape.captures, bind_of_ok value]
    cases expected with
    | function id signature => exact absurd rfl (plain id signature)
    | _ => exact pure_eq_ok.mpr ⟨matched_eq_some_iff.mpr ⟨same, rfl⟩, rfl⟩
  | .expr op, v, _, _, _, .accepted value answer truthy => by
    rw [Shape.captures, bind_of_ok value]
    refine (bind_of_ok answer _).trans ?_
    exact pure_eq_ok.mpr ⟨matched_eq_some_iff.mpr ⟨truthy, rfl⟩, rfl⟩
  | .any, _, _, _, _, .any => rfl
  | .ofType _, _, _, _, _, .ofType holds =>
    pure_eq_ok.mpr ⟨matched_eq_some_iff.mpr ⟨holds, rfl⟩, rfl⟩
  | .list items, _, _, _, _, .list each => by
    rw [Shape.captures, if_pos (beq_iff_eq.mpr each.length_eq)]
    exact captures_of_allMatch items each
  | .headTail head tail, _, _, _, _, .headTail each rest => by
    rw [Shape.captures_headTail _ each.length_eq, bind_of_ok (captures_of_allMatch head each)]
    refine (bind_of_ok (bindList_eq_ok_iff.mpr rest) _).trans ?_
    rfl
  | .initLast init last, _, _, _, _, .initLast each rest => by
    rw [Shape.captures_initLast _ each.length_eq, bind_of_ok (captures_of_allMatch last each)]
    refine (bind_of_ok (bindList_eq_ok_iff.mpr rest) _).trans ?_
    rfl
  | .middle head mid last, _, _, _, _, .middle eachFirst eachLast rest => by
    rw [Shape.captures_middle _ eachFirst.length_eq eachLast.length_eq,
      bind_of_ok (captures_of_allMatch head eachFirst)]
    refine (bind_of_ok (captures_of_allMatch last eachLast) _).trans ?_
    refine (bind_of_ok (bindList_eq_ok_iff.mpr rest) _).trans ?_
    rfl
  | .dict entries, _, _, _, _, .dict count each => by
    rw [Shape.captures, if_pos (beq_iff_eq.mpr count)]
    exact captures_of_entriesMatch entries each
  | .openDict entries rest, _, _, _, _, .openDict each splits left => by
    rw [Shape.captures_openDict _ splits, bind_of_ok (captures_of_entriesMatch entries each)]
    refine (bind_of_ok (bindDict_eq_ok_iff.mpr left) _).trans ?_
    rfl

theorem captures_of_allMatch : ∀ (ps : List Pattern) {values : List Value} {b : Bindings}
    {M M' : Machine}, AllMatch supply space ps values M b M' →
    capturesOfAll supply space values ps M = .ok (some b) M'
  | [], _, _, _, _, .nil => rfl
  | p :: rest, _, _, _, _, .cons first later => by
    rw [capturesOfAll, bind_of_ok (Pattern.captures_of_matches p first)]
    refine (bind_of_ok (captures_of_allMatch rest later) _).trans ?_
    rfl

theorem captures_of_entriesMatch :
    ∀ (entries : List KeyPattern) {found : Entries Value} {b : Bindings}
    {M M' : Machine}, EntriesMatch supply space found entries M b M' →
    capturesOfEntries supply space found entries M = .ok (some b) M'
  | [], _, _, _, _, .nil => rfl
  | ⟨key, p⟩ :: rest, _, _, _, _, .cons value first later => by
    rw [capturesOfEntries, value]
    refine (bind_of_ok (Pattern.captures_of_matches p first) _).trans ?_
    refine (bind_of_ok (captures_of_entriesMatch rest later) _).trans ?_
    rfl

end

/-- **A pattern captures bindings if and only if it matches with them.** -/
theorem Pattern.captures_eq_some_iff {p : Pattern} {v : Value} {b : Bindings} {M M' : Machine} :
    p.captures supply space v M = .ok (some b) M' ↔ p.Matches supply space v M b M' :=
  ⟨p.matches_of_captures, p.captures_of_matches⟩

/-! ## One binding for each slot -/

mutual

/-- **A match binds the slots that the pattern names**, one after another. -/
theorem Pattern.Matches.slots_eq : ∀ {p : Pattern} {v : Value} {b : Bindings} {M M' : Machine},
    p.Matches supply space v M b M' → b.map (·.1) = p.slots
  | ⟨shape, whole⟩, _, _, _, _, .intro parts => by
    rw [List.map_append, List.map_map, parts.slots_eq, Pattern.slots]
    exact congrArg (shape.slots ++ ·) (List.map_id _)

theorem Shape.Matches.slots_eq : ∀ {shape : Shape} {v : Value} {b : Bindings} {M M' : Machine},
    shape.Matches supply space v M b M' → b.map (·.1) = shape.slots
  | .expr _, _, _, _, _, .equal _ _ _ | .expr _, _, _, _, _, .accepted _ _ _ | .any,
      _, _, _, _, .any
  | .ofType _, _, _, _, _, .ofType _ => rfl
  | .list _, _, _, _, _, .list each => each.slots_eq
  | .headTail _ _, _, _, _, _, .headTail each rest | .initLast _ _, _, _, _, _,
      .initLast each rest => by
    rw [List.map_append, each.slots_eq, rest.slots_eq, Shape.slots]
  | .middle _ _ _, _, _, _, _, .middle eachFirst eachLast rest => by
    rw [List.map_append, List.map_append, eachFirst.slots_eq, eachLast.slots_eq, rest.slots_eq,
      Shape.slots]
  | .dict _, _, _, _, _, .dict _ each => each.slots_eq
  | .openDict _ _, _, _, _, _, .openDict each _ left => by
    rw [List.map_append, each.slots_eq, left.slots_eq, Shape.slots]

theorem AllMatch.slots_eq : ∀ {ps : List Pattern} {values : List Value} {b : Bindings}
    {M M' : Machine}, AllMatch supply space ps values M b M' → b.map (·.1) = slotsOfAll ps
  | [], _, _, _, _, .nil => rfl
  | _ :: _, _, _, _, _, .cons first later => by
    rw [List.map_append, first.slots_eq, later.slots_eq, slotsOfAll]

theorem EntriesMatch.slots_eq : ∀ {entries : List KeyPattern} {found : Entries Value} {b : Bindings}
    {M M' : Machine}, EntriesMatch supply space found entries M b M' →
    b.map (·.1) = slotsOfEntries entries
  | [], _, _, _, _, .nil => rfl
  | ⟨_, _⟩ :: _, _, _, _, _, .cons _ first later => by
    rw [List.map_append, first.slots_eq, later.slots_eq, slotsOfEntries]

end

/-! ## Closed dictionaries -/

/-- Every entry of the pattern matches the value under its key, in some machine on the way. -/
theorem EntriesMatch.each {entries : List KeyPattern} {found : Entries Value} {b : Bindings}
    {M M' : Machine} (h : EntriesMatch supply space found entries M b M') :
    ∀ entry ∈ entries, ∃ v part M₁ M₂, found.get? entry.key = some v ∧
      entry.pattern.captures supply space v M₁ = .ok (some part) M₂ ∧ part ⊆ b := by
  induction entries generalizing M b with
  | nil => exact fun _ mem => (by cases mem)
  | cons entry rest ih =>
    cases h with
    | cons value first later =>
      refine List.forall_mem_cons.mpr ⟨?_, fun other mem => ?_⟩
      · exact ⟨_, _, _, _, value, Pattern.captures_of_matches _ first, List.subset_append_left ..⟩
      · obtain ⟨v, part, M₁, M₂, value, run, sub⟩ := ih later other mem
        exact ⟨v, part, M₁, M₂, value, run, List.subset_append_of_subset_right _ sub⟩

/-- **A closed pattern counts the entries of a dictionary.** Every key that it names is found, and
the pattern that it has for the key matches. There are as many entries as the pattern has, so its
keys are those of the dictionary if and only if it names none of them twice. -/
theorem Pattern.captures_dict {entries : List KeyPattern} {whole : Option Nat} {id : ObjectId}
    {found : Entries Value} {b : Bindings} {M M' : Machine} (sorted : found.Sorted)
    (h : Pattern.captures supply space (.dict id found) ⟨.dict entries, whole⟩ M =
      .ok (some b) M') :
    (∀ entry ∈ entries, ∃ v part M₁ M₂, found.get? entry.key = some v ∧
      entry.pattern.captures supply space v M₁ = .ok (some part) M₂ ∧ part ⊆ b) ∧
    found.length = entries.length ∧
    ((∀ key, key ∈ found.map (·.1) ↔ key ∈ entries.map (·.key)) ↔ (entries.map (·.key)).Nodup) := by
  cases Pattern.matches_of_captures _ h with
  | intro parts =>
    cases parts with
    | dict count each =>
      have all := each.each
      have named : entries.map (·.key) ⊆ found.map (·.1) := by
        intro key mem
        obtain ⟨entry, inside, rfl⟩ := List.mem_map.mp mem
        obtain ⟨v, -, -, -, value, -⟩ := all entry inside
        exact List.mem_map_of_mem (Entries.mem_of_get? value)
      have apart := sorted.nodup_keys
      have size : (found.map (·.1)).length = (entries.map (·.key)).length := by
        rw [List.length_map, List.length_map, count]
      refine ⟨fun entry mem => ?_, count, fun same => ?_, fun nodup key => ?_⟩
      · obtain ⟨v, part, M₁, M₂, value, run, sub⟩ := all entry mem
        exact ⟨v, part, M₁, M₂, value, run, List.subset_append_of_subset_left _ sub⟩
      · have sub : found.map (·.1) ⊆ entries.map (·.key) := fun key => (same key).mp
        have perm := (List.subperm_of_subset apart sub).perm_of_length_le (Nat.le_of_eq size.symm)
        exact perm.nodup_iff.mp apart
      · have perm := (List.subperm_of_subset nodup named).perm_of_length_le (Nat.le_of_eq size)
        exact perm.mem_iff.symm

/-- The theorem at a pattern of one key, which binds the value to a slot. -/
theorem Pattern.captures_dict_single :
    Entries.Sorted [("a", Value.long 1)] ∧
      Pattern.captures .none 0 (.dict 0 [("a", .long 1)]) ⟨.dict [⟨"a", ⟨.any, some 0⟩⟩], none⟩
        default = .ok (some [(0, .long 1)]) default ∧
      ∀ key, key ∈ [("a", Value.long 1)].map (·.1) ↔
        key ∈ [KeyPattern.mk "a" ⟨.any, some 0⟩].map (·.key) := by
  have sorted : Entries.Sorted [("a", Value.long 1)] := List.pairwise_singleton ..
  have run :
      Pattern.captures .none 0 (.dict 0 [("a", .long 1)]) ⟨.dict [⟨"a", ⟨.any, some 0⟩⟩], none⟩
      default = .ok (some [(0, .long 1)]) default := rfl
  exact ⟨sorted, run, (Pattern.captures_dict sorted run).2.2.mpr (List.nodup_singleton _)⟩

/-- **A key that is named twice is counted twice.** The pattern names `a` twice and matches a
dictionary that has `b` besides. -/
theorem Pattern.captures_repeated_key :
    Pattern.captures .none 0 (.dict 0 [("a", .long 1), ("b", .long 2)])
        ⟨.dict [⟨"a", ⟨.any, none⟩⟩, ⟨"a", ⟨.any, none⟩⟩], none⟩ default = .ok (some []) default ∧
      "b" ∈ [("a", Value.long 1), ("b", .long 2)].map (·.1) ∧
      "b" ∉ [KeyPattern.mk "a" ⟨.any, none⟩, ⟨"a", ⟨.any, none⟩⟩].map (·.key) :=
  ⟨rfl, by decide, by decide⟩

end Code

end CellScript
