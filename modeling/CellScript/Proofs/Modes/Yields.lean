import CellScript.Proofs.Code.Specialized
import CellScript.Proofs.Modes.Becomes

/-!
# What folding finds

Folding evaluates an operation whose parts may have been specialised and folded before. What it
finds is a constant that the operation stands for as it was written, in the memory that holds the
functions which folding has created.

* `Memory.Adds` — how constants change memory
* `Eval.Results` — what the results of a step are like
* `Op.Becomes.results` — folding finds a constant that the operation stands for
* `Op.Becomes.finish` — what completion makes of an operation whose parts are completed
-/

namespace CellScript

open Code

variable {α β : Type}

/-- Lists, dictionaries and functions were created, and nothing else has happened. -/
structure Memory.Adds (m m' : Memory) : Prop where
  retains : m.Retains m'
  spaces : m'.spaces = m.spaces
  held : m'.held = m.held
  pins : m'.pins = m.pins
  scratch : m'.scratch = m.scratch

theorem Memory.Retains.refl (m : Memory) : m.Retains m :=
  ⟨Nat.le_refl _, Nat.le_refl _, fun _ _ => rfl, Nat.le_refl _, fun _ _ empty => empty⟩

namespace Memory.Adds

variable {m m' m'' : Memory}

theorem refl (m : Memory) : m.Adds m := ⟨.refl m, rfl, rfl, rfl, rfl⟩

theorem trans (h : m.Adds m') (h' : m'.Adds m'') : m.Adds m'' :=
  ⟨h.retains.trans h'.retains, h'.spaces.trans h.spaces, h'.held.trans h.held,
    h'.pins.trans h.pins, h'.scratch.trans h.scratch⟩

theorem newObject (m : Memory) : m.Adds m.newObject.2 :=
  ⟨⟨Nat.le_succ _, Nat.le_refl _, fun _ _ => rfl, Nat.le_refl _, fun _ _ empty => empty⟩, rfl, rfl,
    rfl, rfl⟩

theorem newClosure (m : Memory) (captured : List Captured) : m.Adds (m.newClosure captured).2 := by
  refine ⟨⟨Nat.le_refl _, Nat.le_refl _, fun _ _ => rfl, ?_, fun id lt empty => ?_⟩, rfl, rfl, rfl,
    rfl⟩
  · show _ ≤ (m.closures.push captured).size
    rw [Array.size_push]
    exact Nat.le_succ _
  · rw [Memory.closure_newClosure, if_neg (Nat.ne_of_lt lt), empty]

theorem newFunction (m : Memory) (f : FunctionObject) : m.Adds (m.newFunction f).2 := by
  refine ⟨⟨Nat.le_refl _, ?_, fun id lt => ?_, Nat.le_refl _, fun _ _ empty => empty⟩, rfl, rfl,
    rfl, rfl⟩
  · show _ ≤ (m.functions.push f).size
    rw [Array.size_push]
    exact Nat.le_succ _
  · rw [Memory.function_newFunction, if_neg (Nat.ne_of_lt lt)]

end Memory.Adds

/-! ## Results -/

/-- In all memories later than `m`, the step adds to memory if it has a result, and the result is as
stated. -/
def Eval.Results (m : Memory) (P : Memory → α → Prop) (x : Eval α) : Prop :=
  ∀ M, m.Retains M.memory → ∀ v M', x M = .ok v M' → M.memory.Adds M'.memory ∧ P M'.memory v

namespace Eval.Results

variable {m : Memory} {P : Memory → α → Prop} {Q : Memory → β → Prop}

theorem pure {v : α} (h : ∀ m', m.Retains m' → P m' v) : Results m P (Pure.pure v) := by
  rintro M later _ _ ⟨⟩
  exact ⟨.refl _, h _ later⟩

theorem later {x : Eval α} {m' : Memory} (h : Results m P x) (later : m.Retains m') :
    Results m' P x := fun M later' => h M (later.trans later')

theorem imp {x : Eval α} {Q : Memory → α → Prop} (h : Results m P x)
    (imp : ∀ m' v, m.Retains m' → P m' v → Q m' v) : Results m Q x := by
  intro M later v M' ran
  obtain ⟨adds, found⟩ := h M later v M' ran
  exact ⟨adds, imp _ v (later.trans adds.retains) found⟩

theorem ofExcept {x : Except Exception α} (h : ∀ v, x = .ok v → ∀ m', m.Retains m' → P m' v) :
    Results m P (Eval.ofExcept x) := by
  cases x with
  | ok v => exact pure (h v rfl)
  | error e =>
    intro M _ v M' ran
    cases ran

theorem bind {x : Eval α} {f : α → Eval β} (hx : Results m P x)
    (hf : ∀ m' v, m.Retains m' → P m' v → Results m' Q (f v)) : Results m Q (x >>= f) := by
  intro M later w M'' ran
  obtain ⟨v, M', first, second⟩ := Eval.bind_eq_ok.mp ran
  obtain ⟨adds, found⟩ := hx M later v M' first
  obtain ⟨adds', found'⟩ :=
    hf M'.memory v (later.trans adds.retains) found M' (.refl _) w M'' second
  exact ⟨adds.trans adds', found'⟩

theorem located {x : Eval α} (h : Results m P x) (span : Span) :
    Results m P (Eval.located span x) := by
  intro M later v M' ran
  unfold Eval.located at ran
  split at ran
  · cases ran
  · exact h M later v M' ran

theorem newObject : Results m (fun _ _ => True) (Eval.create Memory.newObject) := by
  rintro M later _ _ ⟨⟩
  exact ⟨.newObject _, trivial⟩

theorem newList {xs : List Value} {P : Memory → Value → Prop}
    (h : ∀ m' i, m.Retains m' → P m' (.list i xs)) : Results m P (Eval.newList xs) :=
  newObject.bind fun _ i later _ => pure fun _ later' => h _ i (later.trans later')

theorem newDict {es : Entries Value} {P : Memory → Value → Prop}
    (h : ∀ m' i, m.Retains m' → P m' (.dict i es)) : Results m P (Eval.newDict es) :=
  newObject.bind fun _ i later _ => pure fun _ later' => h _ i (later.trans later')

theorem cast {u : Value} {ty : Ty} {P : Memory → Value → Prop}
    (h : ∀ m' i v, m.Retains m' → u.cast i ty = .ok v → P m' v) : Results m P (Eval.cast u ty) :=
  newObject.bind fun _ i later _ => ofExcept fun v converted _ later' =>
    h _ i v (later.trans later') converted

/-- A function that has captured nothing. -/
theorem newFunction {signature : Signature} {defaults : List Value} {body : Op} {t : Template}
    {region : Span} {P : Memory → Value → Prop}
    (h : ∀ m' (g : FunctionId) (d : ClosureId), m.Retains m' →
      g < m'.functions.size ∧ d < m'.closures.size → m'.closure d = [] →
      m'.function g = ⟨signature, defaults, .literal body t d region⟩ →
      P m' (.function g signature)) :
    Results m P (do
      let closure ← Eval.newClosure []
      Eval.create (·.newFunction ⟨signature, defaults, .literal body t closure region⟩)) := by
  rintro M later _ _ ⟨⟩
  refine ⟨(Memory.Adds.newClosure M.memory []).trans (.newFunction _ _),
    h _ M.memory.functions.size M.memory.closures.size ?_ ⟨?_, ?_⟩ ?_ ?_⟩
  · exact later.trans ((Memory.Adds.newClosure M.memory []).trans (.newFunction _ _)).retains
  · exact Nat.lt_of_lt_of_eq (Nat.lt_succ_self _) (Array.size_push ..).symm
  · exact Nat.lt_of_lt_of_eq (Nat.lt_succ_self _) (Array.size_push ..).symm
  · exact (Memory.closure_newClosure ..).trans (if_pos rfl)
  · exact (Memory.function_newFunction ..).trans (if_pos rfl)

end Eval.Results

namespace Code

/-! ## Constants before specialisation -/

theorem Op.isConstant_of_constant? {op : Op} {v : Value} (h : op.constant? = some v) :
    op.isConstant = true := by
  obtain ⟨span, action⟩ := op
  cases action <;> cases h
  rfl

theorem constantListSegments_constantRun (run : List Value) (segments : List ListSegment) :
    constantListSegments (constantRun run ++ segments) = constantListSegments segments := by
  unfold constantRun
  split <;> rfl

theorem constantDictSegments_mergedRun (run : Option (Entries Value))
    (segments : List DictSegment) :
    constantDictSegments (mergedRun run ++ segments) = constantDictSegments segments := by
  cases run <;> rfl

/-- Only constant items are laid out in constant stretches. -/
theorem constantItems_of_listSegments {items : List Item} {run : List Value}
    (h : constantListSegments (listSegments run items) = true) : constantItems items = true := by
  induction items generalizing run with
  | nil => rfl
  | cons item rest ih =>
    unfold listSegments at h
    split at h
    · next values found =>
      cases item with
      | value op =>
        obtain ⟨v, known, -⟩ := Option.map_eq_some_iff.mp found
        rw [constantItems, Op.isConstant_of_constant? known, ih h, Bool.and_true]
      | splat op =>
        obtain ⟨v, known, -⟩ := Option.bind_eq_some_iff.mp found
        rw [constantItems, Op.isConstant_of_constant? known, ih h, Bool.and_true]
    · rw [constantListSegments_constantRun] at h
      cases item <;> cases h

/-- Only constant entries are merged in constant stretches. -/
theorem constantEntries_of_dictSegments {entries : List Entry} {run : Option (Entries Value)}
    (h : constantDictSegments (dictSegments run entries) = true) :
    constantEntries entries = true := by
  induction entries generalizing run with
  | nil => rfl
  | cons entry rest ih =>
    unfold dictSegments at h
    split at h
    · next more found =>
      cases entry with
      | pair key value =>
        obtain ⟨k, known, found⟩ := Option.bind_eq_some_iff.mp found
        obtain ⟨v, known', -⟩ := Option.bind_eq_some_iff.mp found
        obtain ⟨u, known, -⟩ := Option.bind_eq_some_iff.mp known
        rw [constantEntries, Op.isConstant_of_constant? known, Op.isConstant_of_constant? known',
          ih h]
        rfl
      | splat op =>
        obtain ⟨v, known, -⟩ := Option.bind_eq_some_iff.mp found
        rw [constantEntries, Op.isConstant_of_constant? known, ih h, Bool.and_true]
    · rw [constantDictSegments_mergedRun] at h
      cases entry with
      | pair key value =>
        rw [Entry.segment] at h
        split at h <;> cases h
      | splat op => cases h

/-- What is constant after specialisation was constant before. -/
theorem Action.isConstant_of_specialize {a : Action} (h : a.specialize.isConstant = true) :
    a.isConstant = true := by
  cases a with
  | binary op mode l r =>
    rw [Action.specialize] at h
    split at h <;> exact h
  | call callee args =>
    rw [Action.specialize] at h
    split at h <;> cases h
  | list items =>
    rw [Action.specialize] at h
    split at h
    · exact constantItems_of_listSegments h
    · exact h
  | dict entries =>
    rw [Action.specialize] at h
    split at h
    · exact constantEntries_of_dictSegments h
    · exact h
  | access container keys =>
    rcases keys with _ | ⟨key, _ | ⟨second, rest⟩⟩
    · cases h
    · rw [Action.specialize] at h
      split at h <;> cases h
    · cases h
  | _ => exact h

theorem Op.isConstant_of_specialize {op : Op} (h : op.specialize.isConstant = true) :
    op.isConstant = true := by
  obtain ⟨span, action⟩ := op
  exact Action.isConstant_of_specialize h

/-- Completion leaves types and names of parameters as they are. -/
theorem ParamsBecome.signature {m : Memory} {params params' : List Param}
    (h : ParamsBecome m params params') :
    params'.map (fun p => (p.ty, p.name)) = params.map fun p => (p.ty, p.name) := by
  induction params generalizing params' with
  | nil =>
    cases h
    rfl
  | cons p rest ih =>
    cases h with
    | required name ty later | optional name ty _ later =>
      exact congrArg ((ty, name) :: ·) (ih later)

/-! ## Folding -/

open Eval (Results)

variable {m : Memory} (space : SpaceId)

mutual

/-- **Folding finds a constant that the operation stands for.** -/
theorem Op.Becomes.results : ∀ {op op' : Op}, Op.Becomes m op op' → op'.isConstant = true →
    Results m (Op.Yields · op) (op'.eval Supply.none space)
  | _, _, .same span h, constant =>
    ((h.results constant).located span).imp fun _ _ _ found => .mk span found
  | _, _, @Op.Becomes.specialized _ _ op' h, constant => by
    -- Nothing that is specialised evaluates to anything else.
    have unspecialized : op'.specialize.eval Supply.none space = op'.eval Supply.none space :=
      (op'.eval_specialize Supply.none.meet Supply.none.bind space).1
    rw [unspecialized]
    exact h.results (Op.isConstant_of_specialize constant)
  | _, _, .folded h span, _ => .located (.pure fun _ later => h.retains later) span

theorem Action.Becomes.results : ∀ {a b : Action}, Action.Becomes m a b → b.isConstant = true →
    Results m (Action.Yields · a) (b.eval Supply.none space)
  | _, _, .constant scalar, _ => .pure fun _ _ => .constant scalar
  | _, _, .list h, constant =>
    (h.results constant).bind fun _ _ _ found => .newList fun _ i later =>
      .list i (found.retains later)
  | _, _, .dict h, constant =>
    (h.results [] constant).bind fun _ _ _ found => .newDict fun _ i later =>
      .dict i (found.retains later)
  | _, _, .function h returns hBody hTemplate captures region, constant => by
    rw [Action.isConstant, Bool.and_eq_true, List.isEmpty_iff] at constant
    obtain ⟨rfl, constant⟩ := constant
    rw [Action.eval]
    refine (h.results constant).bind fun m' defaults later found => ?_
    rw [h.signature]
    exact .newFunction fun m'' g d later' created empty made =>
      .function (found.retains later') returns ((hBody.retains later).retains later')
        ((hTemplate.retains later).retains later') region created empty made
  | _, _, .ifElse hc ht he, constant => by
    simp only [Action.isConstant, Bool.and_eq_true] at constant
    rw [Action.eval]
    refine (hc.results constant.1.1).bind fun m' u later found => ?_
    cases truthy : u.truthy with
    | true =>
      exact ((ht.results constant.1.2).later later).imp fun _ _ later' found' =>
        .ifTrue _ (found.retains later') truthy found'
    | false =>
      exact ((he.results constant.2).later later).imp fun _ _ later' found' =>
        .ifFalse _ (found.retains later') truthy found'
  | .binary op _ _ _, _, .binary blind mode hl hr, constant => by
    simp only [Action.isConstant, Bool.and_eq_true] at constant
    have first := hl.results constant.1.2
    have second := hr.results constant.2
    by_cases conj : op = .and
    · subst conj
      rw [Action.eval]
      refine first.bind fun m' u later found => ?_
      cases truthy : u.truthy with
      | true =>
        exact (second.later later).bind fun _ w later' found' => .pure fun _ later'' =>
          .andTrue mode ((found.retains later').retains later'') truthy (found'.retains later'')
      | false => exact .pure fun _ later' => .andFalse mode _ (found.retains later') truthy
    · by_cases disj : op = .or
      · subst disj
        rw [Action.eval]
        refine first.bind fun m' u later found => ?_
        cases truthy : u.truthy with
        | true => exact .pure fun _ later' => .orTrue mode _ (found.retains later') truthy
        | false =>
          exact (second.later later).bind fun _ w later' found' => .pure fun _ later'' =>
            .orFalse mode ((found.retains later').retains later'') truthy (found'.retains later'')
      · rw [Action.eval]
        · exact first.bind fun _ a later found => (second.later later).bind fun _ b later' found' =>
            .ofExcept fun v result _ later'' =>
              .binary blind ⟨conj, disj⟩ mode ((found.retains later').retains later'')
                (found'.retains later'') result
        · exact conj
        · exact disj
  | _, _, .unary op h, constant => by
    rw [Action.eval]
    exact (h.results constant).bind fun _ u _ found => .ofExcept fun v result _ later =>
      .unary op (found.retains later) result
  | _, _, .cast h ty, constant => by
    rw [Action.eval]
    exact (h.results constant).bind fun _ u _ found => .cast fun _ i v later result =>
      .cast ty i (found.retains later) result
  | _, _, .isOf h ty, constant => by
    rw [Action.eval]
    exact (h.results constant).bind fun _ u _ found => .pure fun _ later =>
      .isOf ty (found.retains later)
  | _, _, .fail _, constant | _, _, .reference _ _, constant | _, _, .call _ _, constant
  | _, _, .curry _ _, constant | _, _, .letIn _ _, constant | _, _, .matchOn _ _, constant
  | _, _, .forEach _ _ _, constant | _, _, .access _ _, constant
  | _, _, .tryCatch _ _ _ _ _, constant | _, _, .throw _, constant => by cases constant

theorem ItemsBecome.results : ∀ {items items' : List Item}, ItemsBecome m items items' →
    constantItems items' = true →
    Results m (ItemsYield · items) (evalItems Supply.none space items')
  | _, _, .nil, _ => .pure fun _ _ => .nil
  | _, _, .value h rest, constant => by
    simp only [constantItems, Bool.and_eq_true] at constant
    rw [evalItems]
    refine (h.results constant.1).bind fun _ v later found => ?_
    exact ((rest.results constant.2).later later).bind fun _ vs later' found' =>
      .pure fun _ later'' =>
        .value ((found.retains later').retains later'') (found'.retains later'')
  | _, _, .splat h rest, constant => by
    simp only [constantItems, Bool.and_eq_true] at constant
    rw [evalItems]
    refine (h.results constant.1).bind fun _ v later found => ?_
    refine (Results.ofExcept fun us spread _ _ => spread).bind fun _ us later' spread => ?_
    refine ((rest.results constant.2).later (later.trans later')).bind fun _ vs later'' found' => ?_
    exact .pure fun _ last => .splat (found.retains ((later'.trans later'').trans last)) spread
      (found'.retains last)

theorem EntriesBecome.results (before : Entries Value) : ∀ {entries entries' : List Entry},
    EntriesBecome m entries entries' → constantEntries entries' = true →
    Results m (EntriesYield · before entries) (evalEntries Supply.none space before entries')
  | _, _, .nil, _ => .pure fun _ _ => .nil before
  | _, _, .pair hk hv rest, constant => by
    simp only [constantEntries, Bool.and_eq_true] at constant
    rw [evalEntries]
    refine (hk.results constant.1.1).bind fun _ u later found => ?_
    refine (Results.ofExcept fun key converted _ _ => converted).bind
      fun _ key later' converted => ?_
    have since := later.trans later'
    refine ((hv.results constant.1.2).later since).bind fun _ w later'' found' => ?_
    exact ((rest.results (before.insert key w) constant.2).later (since.trans later'')).imp
      fun _ _ last found'' => .pair (found.retains ((later'.trans later'').trans last)) converted
        (found'.retains last) found''
  | _, _, .splat h rest, constant => by
    simp only [constantEntries, Bool.and_eq_true] at constant
    rw [evalEntries]
    refine (h.results constant.1).bind fun _ u later found => ?_
    refine (Results.ofExcept fun more spread _ _ => spread).bind fun _ more later' spread => ?_
    exact ((rest.results (before.merge more) constant.2).later (later.trans later')).imp
      fun _ _ last found' => .splat (found.retains (later'.trans last)) spread found'

theorem ParamsBecome.results : ∀ {params params' : List Param}, ParamsBecome m params params' →
    constantDefaults params' = true →
    Results m (ParamsYield · params) (evalDefaults Supply.none space params')
  | _, _, .nil, _ => .pure fun _ _ => .nil
  | _, _, .required name ty rest, constant => by
    rw [evalDefaults]
    exact (rest.results constant).bind fun _ _ _ found => .pure fun _ later =>
      .required name ty (found.retains later)
  | _, _, .optional name ty h rest, constant => by
    simp only [constantDefaults, Bool.and_eq_true] at constant
    rw [evalDefaults]
    refine (h.results constant.1).bind fun _ u later found => ?_
    refine (Results.cast (P := fun _ v => ∃ i, u.cast i ty = .ok v) fun _ i v _ converted =>
      ⟨i, converted⟩).bind fun _ v later' ⟨i, converted⟩ => ?_
    refine ((rest.results constant.2).later (later.trans later')).bind fun _ vs later'' found' => ?_
    exact .pure fun _ last => .optional name ty i
      (found.retains ((later'.trans later'').trans last)) converted (found'.retains last)

end

/-- **What completion makes of an operation** whose parts are completed. -/
theorem Op.Becomes.finish {op op' : Op} (h : Op.Becomes m op op') (options : Options) :
    m.Adds (op'.finish options m).2 ∧
      Op.Becomes (op'.finish options m).2 op (op'.finish options m).1 := by
  simp only [Op.finish]
  have narrowed : Op.Becomes m op (if options.specialize then op'.specialize else op') := by
    split
    · exact .specialized h
    · exact h
  generalize (if options.specialize = true then op'.specialize else op') = op' at narrowed ⊢
  split
  · unfold Op.fold
    split
    · exact ⟨.refl m, narrowed⟩
    · next folds =>
      rw [Bool.or_eq_true, not_or, Bool.not_eq_true, Bool.not_eq_true', Bool.not_eq_false] at folds
      split
      · next v machine ran =>
        obtain ⟨adds, found⟩ := narrowed.results _ folds.2 ⟨m, .detached⟩ (.refl m) v machine ran
        exact ⟨adds, .folded found op'.span⟩
      · exact ⟨.refl m, narrowed⟩
  · exact ⟨.refl m, narrowed⟩

end Code

end CellScript
