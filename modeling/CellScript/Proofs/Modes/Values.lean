import CellScript.Eval.Demand
import CellScript.Proofs.Modes.Links

/-!
# Values of two sessions

Texts, containers and arguments of calls do not tell alike values apart. What a catch clause gets
to know of exceptions that follow each other is alike.

* `Value.Alike.text` — alike values have the same text
* `Value.generated_alike`, `Value.accessAll_alike` — what programs do with containers
* `FunctionObject.Follows.bind` — arguments are bound alike
* `Adapter.arguments_follows` — curried functions hand alike arguments on
-/

namespace CellScript

variable {I : Identities} {L : Links} {v w : Value}

/-! ## Texts -/

namespace Value

mutual

/-- Texts show no identities. -/
theorem Alike.text : ∀ {v w : Value}, Alike I v w → v.text = w.text
  | _, _, .scalar _ => rfl
  | _, _, .list _ items => by rw [Value.text, Value.text, items.itemTexts]
  | _, _, .dict _ entries => by rw [Value.text, Value.text, entries.entryTexts]
  | _, _, .function _ _ => by rw [Value.text, Value.text]

theorem AlikeItems.itemTexts : ∀ {xs ys : List Value}, AlikeItems I xs ys →
    Value.itemTexts xs = Value.itemTexts ys
  | _, _, .nil => rfl
  | _, _, .cons first rest => by
    rw [Value.itemTexts, Value.itemTexts, first.text, rest.itemTexts]

theorem AlikeEntries.entryTexts : ∀ {es fs : List (String × Value)}, AlikeEntries I es fs →
    Value.entryTexts es = Value.entryTexts fs
  | _, _, .nil => rfl
  | _, _, .cons key first rest => by
    rw [Value.entryTexts, Value.entryTexts, first.text, rest.entryTexts]

end

/-! ## Containers -/

/-- Two lists, or no lists at all. -/
theorem Alike.list_cases (h : Alike I v w) :
    (∃ i j xs ys, v = .list i xs ∧ w = .list j ys ∧ AlikeItems I xs ys) ∨
      (∀ i xs, v = .list i xs → False) ∧ ∀ i xs, w = .list i xs → False := by
  cases h with
  | list _ items => exact .inl ⟨_, _, _, _, rfl, rfl, items⟩
  | scalar scalar => exact .inr ⟨fun _ _ h => by subst h; exact scalar,
      fun _ _ h => by subst h; exact scalar⟩
  | dict | function => exact .inr ⟨nofun, nofun⟩

/-- Two dictionaries, or no dictionaries at all. -/
theorem Alike.dict_cases (h : Alike I v w) :
    (∃ i j es fs, v = .dict i es ∧ w = .dict j fs ∧ AlikeEntries I es fs) ∨
      (∀ i es, v = .dict i es → False) ∧ ∀ i es, w = .dict i es → False := by
  cases h with
  | dict _ entries => exact .inl ⟨_, _, _, _, rfl, rfl, entries⟩
  | scalar scalar => exact .inr ⟨fun _ _ h => by subst h; exact scalar,
      fun _ _ h => by subst h; exact scalar⟩
  | list | function => exact .inr ⟨nofun, nofun⟩

theorem AlikeItems.forall₂ {xs ys : List Value} (h : AlikeItems I xs ys) :
    List.Forall₂ (Alike I) xs ys := by
  induction xs generalizing ys with
  | nil =>
    cases h
    exact .nil
  | cons v xs ih =>
    cases h with
    | cons first rest => exact .cons first (ih rest)

theorem alikeItems_of_forall₂ {xs ys : List Value} (h : List.Forall₂ (Alike I) xs ys) :
    AlikeItems I xs ys := by
  induction h with
  | nil => exact .nil
  | cons first _ ih => exact .cons first ih

theorem AlikeEntries.get? {es fs : Entries Value} (h : AlikeEntries I es fs) (key : String) :
    Option.Rel (Alike I) (es.get? key) (fs.get? key) := by
  induction es generalizing fs with
  | nil =>
    cases h
    exact .none
  | cons entry es ih =>
    cases h with
    | cons other first rest =>
      cases same : other == key with
      | true =>
        simp only [Entries.get?, List.find?_cons, same]
        exact .some first
      | false =>
        simp only [Entries.get?, List.find?_cons, same]
        exact ih rest

theorem AlikeEntries.values {es fs : Entries Value} (h : AlikeEntries I es fs) :
    AlikeItems I (es.map (·.2)) (fs.map (·.2)) := by
  induction es generalizing fs with
  | nil =>
    cases h
    exact .nil
  | cons entry es ih =>
    cases h with
    | cons _ first rest => exact .cons first (ih rest)

theorem generated_alike (h : Alike I v w) : BothEnd (AlikeItems I) v.generated w.generated := by
  cases h with
  | @scalar v scalar =>
    cases v with
    | nil => exact .ok .nil
    | list | dict | function => cases scalar
    | _ => exact .error _
  | list _ items => exact .ok items
  | dict _ entries => exact .ok entries.values
  | function => exact .error _

theorem itemAt_alike {xs ys : List Value} (h : AlikeItems I xs ys) (index : Int64) :
    Alike I (itemAt xs index) (itemAt ys index) := by
  unfold itemAt
  split
  · exact .scalar trivial
  · generalize index.toInt.toNat = i
    have rel : ∀ {xs ys : List Value} (i : Nat), AlikeItems I xs ys →
        Alike I (xs[i]?.getD .nil) (ys[i]?.getD .nil) := by
      intro xs ys i h
      induction xs generalizing ys i with
      | nil =>
        cases h
        exact .scalar trivial
      | cons v xs ih =>
        cases h with
        | cons first rest =>
          cases i with
          | zero => exact first
          | succ i => exact ih i rest
    exact rel i h

theorem access_alike {k l : Value} (h : Alike I v w) (key : Alike I k l) :
    BothEnd (Alike I) (v.access k) (w.access l) := by
  cases h with
  | @scalar v scalar =>
    cases v with
    | nil => exact .ok (.scalar trivial)
    | list | dict | function => cases scalar
    | _ => exact .error _
  | list _ items =>
    rw [access, access, key.isNil, key.toLong]
    split
    · exact .ok (.scalar trivial)
    · exact (BothEnd.same (fun _ => rfl) _).map fun i _ same => same ▸ itemAt_alike items i
  | dict _ entries =>
    rw [access, access, key.isNil, key.toPlainText]
    split
    · exact .ok (.scalar trivial)
    · exact (BothEnd.same (fun _ => rfl) _).map fun k _ same =>
        same ▸ optionRel_getD (entries.get? k) (.scalar trivial)
  | function => exact .error _

theorem accessAll_alike {ks ls : List Value} (keys : AlikeItems I ks ls) (h : Alike I v w) :
    BothEnd (Alike I) (v.accessAll ks) (w.accessAll ls) := by
  induction ks generalizing v w ls with
  | nil =>
    cases keys
    exact .ok h
  | cons k ks ih =>
    cases keys with
    | cons first rest =>
      rw [accessAll, accessAll, h.isNil]
      split
      · exact .ok (.scalar trivial)
      · have both := access_alike h first
        generalize v.access k = r at both
        generalize w.access _ = s at both
        cases both with
        | ok h => exact ih rest h
        | error e => exact .error e

end Value

/-! ## Exceptions -/

/-- An exception that is thrown with alike values. -/
theorem Exception.Follows.ofThrown (h : L.values v w) :
    Exception.Follows L (.ofThrown v) (.ofThrown w) :=
  ⟨rfl, h.text, rfl, rfl, .some h⟩

theorem Exception.Follows.caughtValue {e e' : Exception} (h : Exception.Follows L e e')
    (i j : ObjectId) : L.values (e.caughtValue i) (e'.caughtValue j) := by
  rw [Exception.caughtValue, Exception.caughtValue, h.code, h.message]
  have thrown := h.thrown
  generalize e.thrown = x at thrown
  generalize e'.thrown = y at thrown
  cases thrown with
  | some same => exact same
  | none => exact .dict trivial (.cons _ (.scalar trivial) (.cons _ (.scalar trivial) .nil))

theorem Exception.Follows.traceValue {e e' : Exception} (h : Exception.Follows L e e')
    (i j : ObjectId) : L.values (e.traceValue i) (e'.traceValue j) := by
  rw [Exception.traceValue, Exception.traceValue, h.trace]
  refine .list trivial (Value.alikeItems_of_scalars fun v mem => ?_)
  obtain ⟨frame, -, rfl⟩ := List.mem_map.mp mem
  trivial

/-! ## Arguments -/

section Outcomes

variable {α β γ δ : Type} {R : α → β → Prop} {S : γ → δ → Prop}

theorem BothEnd.bind {x : Except Exception α} {y : Except Exception β} (h : BothEnd R x y)
    {f : α → Except Exception γ} {g : β → Except Exception δ}
    (rest : ∀ v w, R v w → BothEnd S (f v) (g w)) : BothEnd S (x >>= f) (y >>= g) := by
  cases h with
  | ok h => exact rest _ _ h
  | error e => exact .error e

theorem BothEnd.foldlM {f : γ → α → Except Exception γ} {g : δ → β → Except Exception δ}
    (step : ∀ c d a b, S c d → R a b → BothEnd S (f c a) (g d b)) {as : List α} {bs : List β}
    (h : List.Forall₂ R as bs) {c : γ} {d : δ} (start : S c d) :
    BothEnd S (as.foldlM f c) (bs.foldlM g d) := by
  induction h generalizing c d with
  | nil => exact .ok start
  | cons first _ ih =>
    rw [List.foldlM_cons, List.foldlM_cons]
    exact (step _ _ _ _ start first).bind fun _ _ now => ih now

end Outcomes

inductive CallArgument.Follows (L : Links) : CallArgument → CallArgument → Prop
  | positional {v w : Value} (h : L.values v w) : Follows L (.positional v) (.positional w)
  | named (name : String) {v w : Value} (h : L.values v w) :
      Follows L (.named name v) (.named name w)
  | splat {v w : Value} (h : L.values v w) : Follows L (.splat v) (.splat w)

structure Arguments.Follows (L : Links) (a b : Arguments) : Prop where
  bound : List.Forall₂ (Option.Rel L.values) a.bound b.bound
  position : a.position = b.position
  named : a.named = b.named

namespace Arguments.Follows

variable {a b : Arguments} (signature : Signature)

/-- The same place is filled in both lists. -/
theorem set {xs ys : List (Option Value)} (h : List.Forall₂ (Option.Rel L.values) xs ys)
    (index : Nat) (same : L.values v w) :
    List.Forall₂ (Option.Rel L.values) (xs.set index (some v)) (ys.set index (some w)) := by
  induction h generalizing index with
  | nil => exact .nil
  | cons first rest ih =>
    cases index with
    | zero => exact .cons (.some same) rest
    | succ index => exact .cons first (ih index)

theorem bindPosition (h : Follows L a b) (same : L.values v w) :
    BothEnd (Follows L) (a.bindPosition signature v) (b.bindPosition signature w) := by
  rw [Arguments.bindPosition, Arguments.bindPosition, h.named, h.position, h.bound.length_eq]
  split
  · exact .error _
  · split
    · exact .ok ⟨set h.bound _ same, rfl, rfl⟩
    · exact .error _

theorem bindName (h : Follows L a b) (name : String) (same : L.values v w) :
    BothEnd (Follows L) (a.bindName signature name v) (b.bindName signature name w) := by
  rw [Arguments.bindName, Arguments.bindName]
  split
  · exact .ok ⟨set h.bound _ same, h.position, rfl⟩
  · exact .error _

theorem bind (h : Follows L a b) {x y : CallArgument} (same : CallArgument.Follows L x y) :
    BothEnd (Follows L) (a.bind signature x) (b.bind signature y) := by
  cases same with
  | positional same => exact h.bindPosition signature same
  | named name same => exact h.bindName signature name same
  | @splat v w same =>
    cases same with
    | scalar scalar =>
      cases v with
      | nil => exact .ok h
      | list | dict | function => cases scalar
      | _ => exact .error _
    | list _ items =>
      exact BothEnd.foldlM (fun _ _ _ _ now same => now.bindPosition signature same)
        items.forall₂ h
    | @dict _ _ es fs _ entries =>
      have named : ∀ {es fs : Entries Value} {a b : Arguments}, L.entries es fs → Follows L a b →
          BothEnd (Follows L)
            (es.foldlM (fun args entry => args.bindName signature entry.1 entry.2) a)
            (fs.foldlM (fun args entry => args.bindName signature entry.1 entry.2) b) := by
        intro es fs a b entries now
        induction es generalizing fs a b with
        | nil =>
          cases entries
          exact .ok now
        | cons entry es ih =>
          cases entries with
          | cons key first rest =>
            rw [List.foldlM_cons, List.foldlM_cons]
            exact (now.bindName signature key first).bind fun _ _ now => ih rest now
      exact named entries ⟨h.bound, h.position, rfl⟩
    | function => exact .error _

end Arguments.Follows

/-- **Arguments are bound alike.** -/
theorem FunctionObject.Follows.bind {static : Memory} {f g : FunctionObject}
    (h : FunctionObject.Follows static L f g) {args args' : List CallArgument}
    (same : List.Forall₂ (CallArgument.Follows L) args args') :
    BothEnd L.items (f.bind args) (g.bind args') := by
  have start : Arguments.Follows L (.empty f.signature) (.empty f.signature) :=
    ⟨List.forall₂_same.mpr fun x mem => by
      obtain ⟨_, -, rfl⟩ := List.mem_map.mp mem
      exact .none, rfl, rfl⟩
  rw [FunctionObject.bind, FunctionObject.bind, ← h.signature]
  refine (BothEnd.foldlM (fun _ _ _ _ now same => now.bind f.signature same) same start).bind
    fun a b now => .ok ?_
  have bound := now.bound
  have defaults := h.defaults
  generalize f.defaults = vs at defaults
  generalize g.defaults = ws at defaults
  generalize a.bound = xs at bound
  generalize b.bound = ys at bound
  induction bound generalizing vs ws with
  | nil => exact .nil
  | cons first rest ih =>
    cases defaults with
    | nil => exact .nil
    | cons default others => exact .cons (optionRel_getD first default) (ih _ _ others)

/-! ## Curried functions -/

section Fixed

variable {fixed fixed' : List (Option Value)} (h : List.Forall₂ (Option.Rel L.values) fixed fixed')

include h

/-- What stands where nothing is fixed. -/
theorem FunctionObject.free_follows {α β : Type} {R : α → β → Prop} {as : List α} {bs : List β}
    (same : List.Forall₂ R as bs) :
    List.Forall₂ R (FunctionObject.free fixed as) (FunctionObject.free fixed' bs) := by
  induction h generalizing as bs with
  | nil => exact .nil
  | cons first rest ih =>
    cases same with
    | nil => exact .nil
    | cons next others =>
      unfold FunctionObject.free
      rw [List.zip_cons_cons, List.zip_cons_cons]
      cases first with
      | some => exact ih others
      | none => exact .cons next (ih others)

theorem Adapter.select_follows : Adapter.select fixed = Adapter.select fixed' := by
  have known : fixed.map (·.isSome) = fixed'.map (·.isSome) := by
    induction h with
    | nil => rfl
    | cons first _ ih => cases first <;> simp [ih]
  rw [Adapter.select, Adapter.select, known]

theorem Adapter.fill_follows {buffer buffer' args args' : List Value} (hb : L.items buffer buffer')
    (ha : L.items args args') :
    L.items (Adapter.fill buffer fixed args) (Adapter.fill buffer' fixed' args') := by
  induction h generalizing buffer buffer' args args' with
  | nil =>
    rw [Adapter.fill, Adapter.fill]
    · exact hb
    all_goals simp
  | cons first rest ih =>
    cases hb with
    | nil =>
      rw [Adapter.fill, Adapter.fill]
      · exact .nil
      all_goals simp
    | cons slot others =>
      cases first with
      | some => exact .cons slot (ih others ha)
      | none =>
        cases ha with
        | nil => exact .cons slot others
        | cons arg more => exact .cons arg (ih others more)

/-- **Curried functions hand alike arguments on.** -/
theorem Adapter.arguments_follows (adapter : Adapter) {args args' : List Value}
    (ha : L.items args args') :
    L.items (adapter.arguments [] fixed args) (adapter.arguments [] fixed' args') := by
  have fixedAt : ∀ index : Nat,
      L.values ((fixed.getD index none).getD .nil) ((fixed'.getD index none).getD .nil) := by
    intro index
    rw [List.getD_eq_getElem?_getD, List.getD_eq_getElem?_getD]
    induction h generalizing index with
    | nil => exact .scalar trivial
    | cons first rest ih =>
      cases index with
      | zero => exact optionRel_getD first (.scalar trivial)
      | succ index => exact ih index
  have argAt : ∀ index : Nat, L.values (args.getD index .nil) (args'.getD index .nil) := by
    intro index
    rw [List.getD_eq_getElem?_getD, List.getD_eq_getElem?_getD]
    have same := ha.forall₂
    clear ha
    induction same generalizing index with
    | nil => exact .scalar trivial
    | cons first rest ih =>
      cases index with
      | zero => exact first
      | succ index => exact ih index
  cases adapter with
  | a1F | a2FF | a3FFF => exact ha
  | a1X => exact .cons (fixedAt 0) .nil
  | a2FX => exact .cons (argAt 0) (.cons (fixedAt 1) .nil)
  | a2XF => exact .cons (fixedAt 0) (.cons (argAt 0) .nil)
  | a2XX => exact .cons (fixedAt 0) (.cons (fixedAt 1) .nil)
  | a3FFX => exact .cons (argAt 0) (.cons (argAt 1) (.cons (fixedAt 2) .nil))
  | a3FXF => exact .cons (argAt 0) (.cons (fixedAt 1) (.cons (argAt 1) .nil))
  | a3FXX => exact .cons (argAt 0) (.cons (fixedAt 1) (.cons (fixedAt 2) .nil))
  | a3XFF => exact .cons (fixedAt 0) (.cons (argAt 0) (.cons (argAt 1) .nil))
  | a3XFX => exact .cons (fixedAt 0) (.cons (argAt 0) (.cons (fixedAt 2) .nil))
  | a3XXF => exact .cons (fixedAt 0) (.cons (fixedAt 1) (.cons (argAt 0) .nil))
  | a3XXX => exact .cons (fixedAt 0) (.cons (fixedAt 1) (.cons (fixedAt 2) .nil))
  | generic =>
    have buffers : L.items ([] ++ fixed.map (·.getD .nil)) ([] ++ fixed'.map (·.getD .nil)) :=
      Value.alikeItems_of_forall₂ (List.forall₂_map_left_iff.mpr
        (List.forall₂_map_right_iff.mpr (h.imp fun _ _ x => optionRel_getD x (.scalar trivial))))
    exact Adapter.fill_follows h buffers ha

end Fixed

end CellScript
