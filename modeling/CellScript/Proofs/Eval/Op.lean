import CellScript.Proofs.Eval.Block

/-!
# Operations are evaluated safely

An operation that finds all it looks at is evaluated to a value of the type that is known for it, or
ends with an ordinary exception, and leaves a machine behind that agrees with analysis. The
evaluation is the same whoever watches.

* `Code.Op.eval_safe` — by recursion over the operation, with one statement for each of its parts
-/

namespace CellScript

variable {a : Analysis} {K : FunctionId → Ty → Prop} {s s' : Supply}

namespace Eval

variable {M : Machine} {σ : ScopeId} {space : SpaceId}

theorem callBound_safe (serves : s.Serves a K s') (good : M.Good a K)
    (attached : M.context.units.isSome = true) (id : FunctionId) (args : List CallArgument) :
    Safe a K (callBound s id args) (callBound s' id args) M fun _ _ => True := by
  unfold callBound
  cases hb : (M.memory.function id).bind args with
  | ok values =>
    refine Safe.found (ask_of_ok hb) ?_
    exact (serves.call M id values good attached).mono fun _ _ _ _ _ => trivial
  | error e =>
    have failed : (ask fun m => (m.function id).bind args) M = .error (.raised e) M := by
      show ofExcept ((M.memory.function id).bind args) M = _
      rw [hb]
      rfl
    refine ⟨by rw [bind_of_error failed, bind_of_error failed], ?_⟩
    rw [bind_of_error failed]
    exact ⟨good, .refl M, (FunctionObject.bind_orderly _ args e hb).1, .refl M⟩

theorem callWith_safe (serves : s.Serves a K s') (good : M.Good a K)
    (attached : M.context.units.isSome = true) (id : FunctionId) (args : List CallArgument) :
    Safe a K (callWith s id args) (callWith s' id args) M fun _ _ => True := by
  unfold callWith
  split
  · next values _ => exact (serves.call M id values good attached).mono fun _ _ _ _ _ => trivial
  · exact callBound_safe serves good attached id args

theorem fix_safe (good : M.Good a K) (f : FunctionObject) (fixed : List (Option Value))
    (name : String) (v : Value) :
    Safe a K (f.fix fixed name v) (f.fix fixed name v) M fun _ _ => True := by
  unfold FunctionObject.fix
  split
  · exact (cast_safe good v _).bind fun _ _ good' _ _ => .pure good' trivial
  · exact .raise good (Exception.ordinary_of _ (by decide))

/-- A function with fixed parameters returns what the function returns. -/
theorem curry_safe (good : M.Good a K) (id : FunctionId) (args : List (String × Value)) :
    Safe a K (curry id args) (curry id args) M fun v _ => v.ty = .function := by
  unfold curry
  refine Safe.memory ?_
  refine (Safe.foldlM (P := fun _ _ => True) args good trivial
    fun fixed arg M' good' _ _ => fix_safe good' _ fixed arg.1 arg.2).bind
    fun fixed M₁ good₁ grows₁ _ => ?_
  refine .create (good₁.stepSame (Memory.grows_newFunction _ _) (good₁.memory.newFunction ?_) rfl
    (fun _ => rfl) (fun _ _ _ found => found) rfl) rfl
  by_cases known : id < M.memory.functions.size
  · refine .inr ⟨Nat.lt_of_lt_of_le known grows₁.memory.functions, ?_⟩
    rw [grows₁.memory.function id known]
    rfl
  · refine .inl ?_
    show (M.memory.function id).signature.returns = .any
    rw [Memory.function, Array.getD_eq_getD_getElem?,
      Array.getElem?_eq_none (Nat.le_of_not_lt known)]
    rfl

theorem bindList_safe (good : M.Good a K) {slot : Option Nat} (receives : a.arena.Receives σ slot)
    (items : List Value) : Safe a K (bindList slot items) (bindList slot items) M
      fun bindings _ => ∀ b ∈ bindings, a.arena.SlotOf σ b.1 .any := by
  unfold bindList
  cases slot with
  | none => exact .pure good fun b hb => by cases hb
  | some slot =>
    refine (newList_safe good items).bind fun v M' good' _ _ => .pure good' fun b hb => ?_
    rw [List.mem_singleton.mp hb]
    exact receives slot rfl

theorem bindDict_safe (good : M.Good a K) {slot : Option Nat} (receives : a.arena.Receives σ slot)
    (entries : Entries Value) : Safe a K (bindDict slot entries) (bindDict slot entries) M
      fun bindings _ => ∀ b ∈ bindings, a.arena.SlotOf σ b.1 .any := by
  unfold bindDict
  cases slot with
  | none => exact .pure good fun b hb => by cases hb
  | some slot =>
    refine (newDict_safe good entries).bind fun v M' good' _ _ => .pure good' fun b hb => ?_
    rw [List.mem_singleton.mp hb]
    exact receives slot rfl

end Eval

namespace Code

open Eval

/-- What a pattern captures has slots to go to. -/
def Captures (a : Analysis) (inner : ScopeId) (bindings : Option Bindings) : Prop :=
  ∀ found, bindings = some found → ∀ b ∈ found, a.arena.SlotOf inner b.1 .any

theorem captures_none (inner : ScopeId) : Captures a inner none := fun _ h => by cases h

theorem captures_some {inner : ScopeId} {bindings : Bindings}
    (h : ∀ b ∈ bindings, a.arena.SlotOf inner b.1 .any) : Captures a inner (some bindings) := by
  rintro _ ⟨⟩
  exact h

theorem captures_append {inner : ScopeId} {first more : Bindings}
    (h : Captures a inner (some first)) (h' : ∀ b ∈ more, a.arena.SlotOf inner b.1 .any) :
    Captures a inner (some (first ++ more)) :=
  captures_some fun b hb => (List.mem_append.mp hb).elim (h first rfl b) (h' b)

theorem captures_matched (inner : ScopeId) (holds : Bool) : Captures a inner (matched holds) := by
  cases holds with
  | false => exact captures_none inner
  | true => exact captures_some fun b hb => by cases hb

section Eval

variable (serves : s.Serves a K s') (rooted : a.Rooted)

include serves rooted

set_option linter.unusedSectionVars false

mutual

/-- **An operation that finds all it looks at is evaluated safely.** -/
theorem Op.eval_safe : ∀ (op : Op) {σ : Option ScopeId} {space : SpaceId} {M : Machine},
    M.Good a K → M.Fits space σ → op.Ok a K σ →
    Safe a K (op.eval s space) (op.eval s' space) M fun v _ => op.staticType.Admits v
  | ⟨span, action⟩, σ, space, M, good, fits, ok => by
    rw [Op.eval, Op.eval]
    refine serves.watch M ⟨span, action⟩ σ space _ _ good fits ok ?_
      ((Action.eval_safe action good fits ok).located span)
    rintro ref node rfl
    obtain ⟨scope, r, rfl, found, leads⟩ := ok
    rw [Action.eval]
    exact ⟨r, found, reference_yields serves good rooted fits leads span⟩

theorem Action.eval_safe : ∀ (action : Action) {σ : Option ScopeId} {space : SpaceId} {M : Machine},
    M.Good a K → M.Fits space σ → action.Ok a K σ →
    Safe a K (action.eval s space) (action.eval s' space) M fun v _ => action.staticType.Admits v
  | .constant v, _, _, _, good, _, _ => .pure good (Ty.admits_ty v)
  | .fail fault, _, _, _, good, _, ok => .raise good ok
  | .reference ref _, _, _, _, good, fits, ⟨scope, r, hσ, _, leads⟩ => by
    subst hσ
    exact (reference_safe serves good rooted fits leads).mono fun _ _ _ _ h => h.admits
  | .list items, _, _, _, good, fits, ok => by
    rw [Action.eval, Action.eval]
    refine (evalItems_safe items good fits ok).bind fun vs M' good' _ _ => ?_
    exact (newList_safe good' vs).mono fun v _ _ _ h => .inl (.inr (.inr h))
  | .patchedList segments, _, _, _, good, fits, ok => by
    rw [Action.eval, Action.eval]
    refine (evalListSegments_safe segments good fits ok).bind fun vs M' good' _ _ => ?_
    exact (newList_safe good' vs).mono fun v _ _ _ h => .inl (.inr (.inr h))
  | .dict entries, _, _, _, good, fits, ok => by
    rw [Action.eval, Action.eval]
    refine (evalEntries_safe entries [] good fits ok).bind fun es M' good' _ _ => ?_
    exact (newDict_safe good' es).mono fun v _ _ _ h => .inl (.inr (.inr h))
  | .mergedDict segments, _, _, _, good, fits, ok => by
    rw [Action.eval, Action.eval]
    refine (evalDictSegments_safe segments [] good fits ok).bind fun es M' good' _ _ => ?_
    exact (newDict_safe good' es).mono fun v _ _ _ h => .inl (.inr (.inr h))
  | .function params returns body template captures region, σ, space, M, good, fits,
      ⟨hp, n, inner, kind, hTemplate, types, hBody, plans⟩ => by
    rw [Action.eval, Action.eval]
    refine (evalDefaults_safe params good fits hp).bind fun defaults M₁ good₁ grows₁ length => ?_
    refine (captureAll_safe serves rooted plans good₁ (fits.grows grows₁)).bind
      fun captured M₂ good₂ grows₂ all => ?_
    refine (newClosure_safe good₂ all).bind fun closure M₃ good₃ grows₃ closes => ?_
    refine .create (good₃.stepSame (Memory.grows_newFunction _ _) (good₃.memory.newFunction ?_) rfl
      (fun _ => rfl) (fun _ _ _ found => found) rfl) (Ty.admits_ty _)
    refine ⟨n, inner, kind, hTemplate, hBody, ?_, closes, by simpa using length⟩
    rw [types]
    simp
  | .call callee args, σ, _, _, good, fits, ⟨inside, hc, ha⟩ => by
    rw [Action.eval, Action.eval]
    refine (Op.eval_safe callee good fits hc).bind fun v M₁ good₁ grows₁ _ => ?_
    cases v with
    | function id signature =>
      refine (evalArguments_safe args good₁ (fits.grows grows₁) ha).bind
        fun vs M₂ good₂ grows₂ _ => ?_
      have attached : M₂.context.units.isSome = true := by
        obtain ⟨scope, rfl⟩ := Option.isSome_iff_exists.mp inside
        exact ((fits.grows grows₁).grows grows₂).1
      exact (callWith_safe serves good₂ attached id vs).mono fun v _ _ _ _ => Ty.admits_any v
    | _ => exact .raise good₁ (Exception.ordinary_of _ (by decide))
  | .fixedCall id signature args, σ, _, _, good, fits, ⟨inside, known, ha⟩ => by
    rw [Action.eval, Action.eval]
    refine (evalOps_safe args good fits ha).bind fun vs M₁ good₁ grows₁ _ => ?_
    obtain ⟨scope, rfl⟩ := Option.isSome_iff_exists.mp inside
    have attached : M₁.context.units.isSome = true := (fits.grows grows₁).1
    obtain ⟨units, hu⟩ := Option.isSome_iff_exists.mp attached
    refine (serves.call M₁ id vs good₁ attached).mono fun v _ _ _ h => ?_
    rw [((good₁.attached units hu).known id _ known).2] at h
    exact h.admits
  | .curry callee args, _, _, _, good, fits, ok => by
    rw [Action.eval, Action.eval]
    refine (Op.eval_safe callee good fits ok.1).bind fun v M₁ good₁ grows₁ _ => ?_
    cases v with
    | function id signature =>
      refine (evalNamed_safe args good₁ (fits.grows grows₁) ok.2).bind fun vs M₂ good₂ _ _ => ?_
      exact (curry_safe good₂ id vs).mono fun v _ _ _ h => .inl (.inr (.inr h))
    | _ => exact .raise good₁ (Exception.ordinary_of _ (by decide))
  | .letIn template body, _, _, _, good, fits, ⟨inner, block, hTemplate, hBody, _⟩ => by
    rw [Action.eval, Action.eval]
    obtain ⟨step, fits₁, -⟩ := good.child rooted fits block hTemplate
    exact .within good step (Op.eval_safe body step.good fits₁ hBody) fun v _ _ _ => Ty.admits_any v
  | .ifElse c t e, _, _, _, good, fits, ok => by
    rw [Action.eval, Action.eval]
    refine (Op.eval_safe c good fits ok.1).bind fun v M₁ good₁ grows₁ _ => ?_
    split
    · exact (Op.eval_safe t good₁ (fits.grows grows₁) ok.2.1).mono fun v _ _ _ _ => Ty.admits_any v
    · exact (Op.eval_safe e good₁ (fits.grows grows₁) ok.2.2).mono fun v _ _ _ _ => Ty.admits_any v
  | .matchOn subject lines, _, _, _, good, fits, ok => by
    rw [Action.eval, Action.eval]
    refine (Op.eval_safe subject good fits ok.1).bind fun v M₁ good₁ grows₁ _ => ?_
    exact (evalLines_safe lines v good₁ (fits.grows grows₁) ok.2).mono
      fun v _ _ _ _ => Ty.admits_any v
  | .forEach template heads body, _, _, _, good, fits, ⟨inner, block, hTemplate, hHeads,
      hBody, _⟩ => by
    rw [Action.eval, Action.eval]
    obtain ⟨step, fits₁, -⟩ := good.child rooted fits block hTemplate
    obtain ⟨outer, n, -, kind, -⟩ := block
    refine .within good step ((runHeads_safe heads (by rw [kind]; rfl) (fun good' fits' =>
      (Op.eval_safe body good' fits' hBody).mono fun _ _ _ _ _ => trivial) step.good
        fits₁ hHeads).bind
      fun vs M₂ good₂ _ _ => newList_safe good₂ vs) fun v _ _ _ => Ty.admits_any v
  | .binary op mode l r, _, _, _, good, fits, ok => by
    have left := Op.eval_safe l good fits ok.1
    have right : ∀ {M' : Machine}, M'.Good a K → _ → _ :=
      fun {M'} good' (grows' : Machine.Grows _ M') =>
      Op.eval_safe r good' (fits.grows grows') ok.2
    cases op with
    | and =>
      rw [Action.eval, Action.eval]
      refine left.bind fun v M₁ good₁ grows₁ _ => ?_
      split
      · exact (right good₁ grows₁).bind fun w _ good₂ _ _ => .pure good₂ (Ty.admits_ty _)
      · exact .pure good₁ (Ty.admits_ty _)
    | or =>
      rw [Action.eval, Action.eval]
      refine left.bind fun v M₁ good₁ grows₁ _ => ?_
      split
      · exact .pure good₁ (Ty.admits_ty _)
      · exact (right good₁ grows₁).bind fun w _ good₂ _ _ => .pure good₂ (Ty.admits_ty _)
    | _ =>
      simp only [Action.eval]
      refine left.bind fun v M₁ good₁ grows₁ hv => ?_
      refine (right good₁ grows₁).bind fun w M₂ good₂ _ hw => ?_
      rw [Value.binaryIn_eq]
      exact .ofExcept good₂ (Value.binary_orderly _ v w) fun _ h => Value.binary_admits hv hw h
  | .unary op e, _, _, _, good, fits, ok => by
    rw [Action.eval, Action.eval]
    refine (Op.eval_safe e good fits ok).bind fun v M₁ good₁ _ hv => ?_
    refine .ofExcept good₁ (Value.unary_orderly op v) fun w h => ?_
    have admits := Value.unary_admits hv h
    cases op <;> exact admits
  | .cast e ty, _, _, _, good, fits, ok => by
    rw [Action.eval, Action.eval]
    refine (Op.eval_safe e good fits ok).bind fun v M₁ good₁ _ _ => ?_
    exact (cast_safe good₁ v ty).mono fun w _ _ _ h => h.admits
  | .isOf e ty, _, _, _, good, fits, ok => by
    rw [Action.eval, Action.eval]
    exact (Op.eval_safe e good fits ok).bind fun v M₁ good₁ _ _ => .pure good₁ (Ty.admits_ty _)
  | .access container keys, _, _, _, good, fits, ok => by
    rw [Action.eval, Action.eval]
    refine (Op.eval_safe container good fits ok.1).bind fun v M₁ good₁ grows₁ _ => ?_
    refine (evalOps_safe keys good₁ (fits.grows grows₁) ok.2).bind fun vs M₂ good₂ _ _ => ?_
    exact .ofExcept good₂ (Value.accessAll_orderly v vs) fun w _ => Ty.admits_any w
  | .keyAccess container key, _, _, _, good, fits, ok => by
    rw [Action.eval, Action.eval]
    refine (Op.eval_safe container good fits ok).bind fun v M₁ good₁ _ _ => ?_
    exact .ofExcept good₁ (Value.access_orderly v key) fun w _ => Ty.admits_any w
  | .tryCatch body template error trace handler, _, _, _, good, fits,
      ⟨hBody, inner, block, hTemplate, he, ht, hHandler, _⟩ => by
    rw [Action.eval, Action.eval]
    refine (Op.eval_safe body good fits hBody).attempt.bind fun r M₁ good₁ grows₁ hr => ?_
    cases r with
    | ok v => exact .pure good₁ (Ty.admits_any v)
    | error e =>
      obtain ⟨step, fits₂, free⟩ := good₁.child rooted (fits.grows grows₁) block hTemplate
      refine Safe.within (P := fun _ _ => True) good₁ step ?_ fun v _ _ _ => Ty.admits_any v
      refine (bindCaught_safe serves step.good fits₂ free he ht e).bind
        fun _ M₃ good₃ grows₃ _ => ?_
      exact (Op.eval_safe handler good₃ (fits₂.grows grows₃) hHandler).mono fun _ _ _ _ _ => trivial
  | .throw e, _, _, _, good, fits, ok => by
    rw [Action.eval, Action.eval]
    refine (Op.eval_safe e good fits ok).bind fun v M₁ good₁ _ _ => ?_
    refine Safe.context ?_
    exact .raise good₁ ((show (Exception.ofThrown v).Ordinary by
      exact fun h => by cases h).orTrace _)

theorem evalOps_safe : ∀ (ops : List Op) {σ : Option ScopeId} {space : SpaceId} {M : Machine},
    M.Good a K → M.Fits space σ → opsOk a K σ ops →
    Safe a K (evalOps s space ops) (evalOps s' space ops) M fun _ _ => True
  | [], _, _, _, good, _, _ => .pure good trivial
  | op :: rest, _, _, _, good, fits, ok => by
    rw [evalOps, evalOps]
    refine (Op.eval_safe op good fits ok.1).bind fun v M₁ good₁ grows₁ _ => ?_
    exact (evalOps_safe rest good₁ (fits.grows grows₁) ok.2).bind fun _ _ good₂ _ _ =>
      .pure good₂ trivial

theorem evalItems_safe : ∀ (items : List Item) {σ : Option ScopeId} {space : SpaceId} {M : Machine},
    M.Good a K → M.Fits space σ → itemsOk a K σ items →
    Safe a K (evalItems s space items) (evalItems s' space items) M fun _ _ => True
  | [], _, _, _, good, _, _ => .pure good trivial
  | .value op :: rest, _, _, _, good, fits, ok => by
    rw [evalItems, evalItems]
    refine (Op.eval_safe op good fits ok.1).bind fun v M₁ good₁ grows₁ _ => ?_
    exact (evalItems_safe rest good₁ (fits.grows grows₁) ok.2).bind fun _ _ good₂ _ _ =>
      .pure good₂ trivial
  | .splat op :: rest, _, _, _, good, fits, ok => by
    rw [evalItems, evalItems]
    refine (Op.eval_safe op good fits ok.1).bind fun v M₁ good₁ grows₁ _ => ?_
    refine (Safe.orderly good₁ (Value.spreadItems_orderly v)).bind
      fun vs M₂ good₂ grows₂ _ => ?_
    exact (evalItems_safe rest good₂ ((fits.grows grows₁).grows grows₂) ok.2).bind
      fun _ _ good₃ _ _ => .pure good₃ trivial

theorem evalListSegments_safe :
    ∀ (segments : List ListSegment) {σ : Option ScopeId} {space : SpaceId}
    {M : Machine}, M.Good a K → M.Fits space σ → listSegmentsOk a K σ segments →
    Safe a K (evalListSegments s space segments) (evalListSegments s' space segments) M
      fun _ _ => True
  | [], _, _, _, good, _, _ => .pure good trivial
  | .constant run :: rest, _, _, _, good, fits, ok => by
    rw [evalListSegments, evalListSegments]
    exact (evalListSegments_safe rest good fits ok).bind fun _ _ good₁ _ _ => .pure good₁ trivial
  | .value op :: rest, _, _, _, good, fits, ok => by
    rw [evalListSegments, evalListSegments]
    refine (Op.eval_safe op good fits ok.1).bind fun v M₁ good₁ grows₁ _ => ?_
    exact (evalListSegments_safe rest good₁ (fits.grows grows₁) ok.2).bind fun _ _ good₂ _ _ =>
      .pure good₂ trivial
  | .splat op :: rest, _, _, _, good, fits, ok => by
    rw [evalListSegments, evalListSegments]
    refine (Op.eval_safe op good fits ok.1).bind fun v M₁ good₁ grows₁ _ => ?_
    refine (Safe.orderly good₁ (Value.spreadItems_orderly v)).bind
      fun vs M₂ good₂ grows₂ _ => ?_
    exact (evalListSegments_safe rest good₂ ((fits.grows grows₁).grows grows₂) ok.2).bind
      fun _ _ good₃ _ _ => .pure good₃ trivial

theorem evalEntries_safe : ∀ (entries : List Entry) (found : Entries Value) {σ : Option ScopeId}
    {space : SpaceId} {M : Machine}, M.Good a K → M.Fits space σ → entriesOk a K σ entries →
    Safe a K (evalEntries s space found entries) (evalEntries s' space found entries) M
      fun _ _ => True
  | [], _, _, _, _, good, _, _ => .pure good trivial
  | .pair k v :: rest, found, _, _, _, good, fits, ok => by
    rw [evalEntries, evalEntries]
    refine (Op.eval_safe k good fits ok.1).bind fun key M₁ good₁ grows₁ _ => ?_
    refine (Safe.orderly good₁ (Value.toKey_orderly key)).bind
      fun key M₂ good₂ grows₂ _ => ?_
    have fits₂ := (fits.grows grows₁).grows grows₂
    refine (Op.eval_safe v good₂ fits₂ ok.2.1).bind fun value M₃ good₃ grows₃ _ => ?_
    exact evalEntries_safe rest _ good₃ (fits₂.grows grows₃) ok.2.2
  | .splat op :: rest, found, _, _, _, good, fits, ok => by
    rw [evalEntries, evalEntries]
    refine (Op.eval_safe op good fits ok.1).bind fun v M₁ good₁ grows₁ _ => ?_
    refine (Safe.orderly good₁ (Value.spreadEntries_orderly v)).bind
      fun more M₂ good₂ grows₂ _ => ?_
    exact evalEntries_safe rest _ good₂ ((fits.grows grows₁).grows grows₂) ok.2

theorem evalDictSegments_safe : ∀ (segments : List DictSegment) (found : Entries Value)
    {σ : Option ScopeId} {space : SpaceId} {M : Machine}, M.Good a K → M.Fits space σ →
    dictSegmentsOk a K σ segments →
    Safe a K (evalDictSegments s space found segments) (evalDictSegments s' space found segments) M
      fun _ _ => True
  | [], _, _, _, _, good, _, _ => .pure good trivial
  | .constant run :: rest, _, _, _, _, good, fits, ok => evalDictSegments_safe rest _ good fits ok
  | .pair key v :: rest, _, _, _, _, good, fits, ok => by
    rw [evalDictSegments, evalDictSegments]
    refine (Op.eval_safe v good fits ok.1).bind fun value M₁ good₁ grows₁ _ => ?_
    exact evalDictSegments_safe rest _ good₁ (fits.grows grows₁) ok.2
  | .dynamic k v :: rest, _, _, _, _, good, fits, ok => by
    rw [evalDictSegments, evalDictSegments]
    refine (Op.eval_safe k good fits ok.1).bind fun key M₁ good₁ grows₁ _ => ?_
    refine (Safe.orderly good₁ (Value.toKey_orderly key)).bind
      fun key M₂ good₂ grows₂ _ => ?_
    have fits₂ := (fits.grows grows₁).grows grows₂
    refine (Op.eval_safe v good₂ fits₂ ok.2.1).bind fun value M₃ good₃ grows₃ _ => ?_
    exact evalDictSegments_safe rest _ good₃ (fits₂.grows grows₃) ok.2.2
  | .splat op :: rest, _, _, _, _, good, fits, ok => by
    rw [evalDictSegments, evalDictSegments]
    refine (Op.eval_safe op good fits ok.1).bind fun v M₁ good₁ grows₁ _ => ?_
    refine (Safe.orderly good₁ (Value.spreadEntries_orderly v)).bind
      fun more M₂ good₂ grows₂ _ => ?_
    exact evalDictSegments_safe rest _ good₂ ((fits.grows grows₁).grows grows₂) ok.2

theorem evalDefaults_safe : ∀ (params : List Param) {σ : Option ScopeId} {space : SpaceId}
    {M : Machine}, M.Good a K → M.Fits space σ → paramsOk a K σ params →
    Safe a K (evalDefaults s space params) (evalDefaults s' space params) M
      fun vs _ => vs.length = params.length
  | [], _, _, _, good, _, _ => .pure good rfl
  | ⟨_, _, none⟩ :: rest, _, _, _, good, fits, ok => by
    rw [evalDefaults, evalDefaults]
    exact (evalDefaults_safe rest good fits ok.2).bind fun _ _ good₁ _ length =>
      .pure good₁ (congrArg (· + 1) length)
  | ⟨_, ty, some op⟩ :: rest, _, _, _, good, fits, ok => by
    rw [evalDefaults, evalDefaults]
    refine (Op.eval_safe op good fits ok.1).bind fun v M₁ good₁ grows₁ _ => ?_
    refine (cast_safe good₁ v ty).bind fun w M₂ good₂ grows₂ _ => ?_
    exact (evalDefaults_safe rest good₂ ((fits.grows grows₁).grows grows₂) ok.2).bind
      fun _ _ good₃ _ length => .pure good₃ (congrArg (· + 1) length)

theorem evalArguments_safe : ∀ (args : List Argument) {σ : Option ScopeId} {space : SpaceId}
    {M : Machine}, M.Good a K → M.Fits space σ → argumentsOk a K σ args →
    Safe a K (evalArguments s space args) (evalArguments s' space args) M fun _ _ => True
  | [], _, _, _, good, _, _ => .pure good trivial
  | .positional op :: rest, _, _, _, good, fits, ok | .named _ op :: rest, _, _, _, good, fits, ok
  | .splat op :: rest, _, _, _, good, fits, ok => by
    rw [evalArguments, evalArguments]
    refine (Op.eval_safe op good fits ok.1).bind fun v M₁ good₁ grows₁ _ => ?_
    exact (evalArguments_safe rest good₁ (fits.grows grows₁) ok.2).bind fun _ _ good₂ _ _ =>
      .pure good₂ trivial

theorem evalNamed_safe : ∀ (args : List Named) {σ : Option ScopeId} {space : SpaceId} {M : Machine},
    M.Good a K → M.Fits space σ → namedOk a K σ args →
    Safe a K (evalNamed s space args) (evalNamed s' space args) M fun _ _ => True
  | [], _, _, _, good, _, _ => .pure good trivial
  | ⟨_, op⟩ :: rest, _, _, _, good, fits, ok => by
    rw [evalNamed, evalNamed]
    refine (Op.eval_safe op good fits ok.1).bind fun v M₁ good₁ grows₁ _ => ?_
    exact (evalNamed_safe rest good₁ (fits.grows grows₁) ok.2).bind fun _ _ good₂ _ _ =>
      .pure good₂ trivial

theorem accepts_safe : ∀ (guard : Option Op) {σ : Option ScopeId} {space : SpaceId} {M : Machine},
    M.Good a K → M.Fits space σ → optionOk a K σ guard →
    Safe a K (accepts s space guard) (accepts s' space guard) M fun _ _ => True
  | none, _, _, _, good, _, _ => .pure good trivial
  | some op, _, _, _, good, fits, ok => by
    rw [accepts, accepts]
    exact (Op.eval_safe op good fits ok).bind fun _ _ good₁ _ _ => .pure good₁ trivial

theorem evalLines_safe :
    ∀ (lines : List Line) (subject : Value) {σ : Option ScopeId} {space : SpaceId}
    {M : Machine}, M.Good a K → M.Fits space σ → linesOk a K σ lines →
    Safe a K (evalLines s space subject lines) (evalLines s' space subject lines) M fun _ _ => True
  | [], _, _, _, _, good, _, _ => .pure good trivial
  | ⟨pattern, template, guard, result⟩ :: rest, subject, _, _, _, good, fits,
      ⟨⟨inner, block, hTemplate, hPattern, _, hGuard, hResult⟩, ok⟩ => by
    rw [evalLines, evalLines]
    obtain ⟨outer, n, rfl, kind, enclosing⟩ := block
    refine (Pattern.captures_safe pattern subject good fits hPattern).bind
      fun bindings M₁ good₁ grows₁ captured => ?_
    cases bindings with
    | none => exact evalLines_safe rest subject good₁ (fits.grows grows₁) ok
    | some bindings =>
      obtain ⟨step, fits₂, free⟩ :=
        good₁.child rooted (fits.grows grows₁) ⟨outer, n, rfl, kind, enclosing⟩ hTemplate
      refine (Safe.within (P := fun _ _ => True) good₁ step ?_ fun _ _ _ _ => trivial).bind
        fun value M₂ good₂ grows₂ (_ : True) => ?_
      · refine (bindSlots_safe serves step.good fits₂ free (captured _ rfl)).bind
          fun _ M₃ good₃ grows₃ _ => ?_
        refine (accepts_safe guard good₃ (fits₂.grows grows₃) hGuard).bind
          fun holds M₄ good₄ grows₄ _ => ?_
        split
        · exact (Op.eval_safe result good₄ ((fits₂.grows grows₃).grows grows₄) hResult).bind
            fun _ _ good₅ _ _ => .pure good₅ trivial
        · exact .pure good₄ trivial
      · cases value with
        | some v => exact .pure good₂ trivial
        | none => exact evalLines_safe rest subject good₂ (fits.grows (grows₁.trans grows₂)) ok

/-- The body is evaluated in copies of the block, all of them spaces of the same scope. -/
theorem runHeads_safe : ∀ (heads : List Head) {inner : ScopeId} {body body' : SpaceId → Eval Value}
    {block : SpaceId} {M : Machine}, (a.arena.scope inner).kind.isDynamic = true →
    (∀ {space : SpaceId} {M : Machine}, M.Good a K → M.Fits space (some inner) →
      Safe a K (body space) (body' space) M fun _ _ => True) →
    M.Good a K → M.Fits block (some inner) → headsOk a K inner heads →
    Safe a K (runHeads s body block heads) (runHeads s' body' block heads) M fun _ _ => True
  | [], _, _, _, _, _, _, hBody, good, fits, _ => by
    rw [runHeads, runHeads]
    exact (hBody good fits).bind fun _ _ good₁ _ _ => .pure good₁ trivial
  | .generator slot ty source :: rest, _, _, _, _, _, dynamic, hBody, good, fits, ok => by
    rw [runHeads, runHeads]
    refine (Op.eval_safe source good fits ok.2.1).bind fun v M₁ good₁ grows₁ _ => ?_
    refine (Safe.orderly good₁ (Value.generated_orderly v)).bind
      fun items M₂ good₂ grows₂ _ => ?_
    have fits₂ := (fits.grows grows₁).grows grows₂
    refine (Safe.mapM (R := fun _ _ _ => True) items good₂ (fun _ _ _ _ _ _ => trivial)
      fun item _ M₃ good₃ grows₃ => ?_).bind fun values M₄ good₄ _ _ => .pure good₄ trivial
    exact iteration_safe serves good₃ rooted (fits₂.grows grows₃) dynamic ok.1 item
      fun good₄ fits₄ =>
      runHeads_safe rest dynamic hBody good₄ fits₄ ok.2.2
  | .definition slot :: rest, _, _, _, _, _, dynamic, hBody, good, fits, ok => by
    rw [runHeads, runHeads]
    obtain ⟨⟨ty, t, found, -⟩, ok⟩ := ok
    have inside := fits
    obtain ⟨attached, known, scope, ne, alive⟩ := inside
    obtain ⟨has, -⟩ := good.memory.hasCell known scope ne found
    refine Safe.found (ask_of_ok (good.memory.cellIn known scope ne found)) ?_
    refine (serves.force _ _ good attached ⟨has, .inl alive⟩).bind fun v M₁ good₁ grows₁ _ => ?_
    exact runHeads_safe rest dynamic hBody good₁ (fits.grows grows₁) ok
  | .condition op :: rest, _, _, _, _, _, dynamic, hBody, good, fits, ok => by
    rw [runHeads, runHeads]
    refine (Op.eval_safe op good fits ok.1).bind fun v M₁ good₁ grows₁ _ => ?_
    split
    · exact runHeads_safe rest dynamic hBody good₁ (fits.grows grows₁) ok.2
    · exact .pure good₁ trivial

theorem Pattern.captures_safe : ∀ (p : Pattern) (subject : Value) {scope inner : ScopeId}
    {space : SpaceId} {M : Machine}, M.Good a K → M.Fits space (some scope) →
    p.Ok a K (some scope) inner →
    Safe a K (p.captures s space subject) (p.captures s' space subject) M
      fun bindings _ => Captures a inner bindings
  | ⟨shape, whole⟩, subject, _, _, _, _, good, fits, ok => by
    rw [Pattern.captures, Pattern.captures]
    refine (Shape.captures_safe shape subject good fits ok.1).bind
      fun bindings M₁ good₁ _ captured => ?_
    cases bindings with
    | none => exact .pure good₁ (captures_none _)
    | some bindings =>
      refine .pure good₁ (captures_append captured fun b hb => ?_)
      obtain ⟨slot, mem, rfl⟩ := List.mem_map.mp hb
      exact ok.2 slot (Option.mem_toList.mp mem)

theorem Shape.captures_safe : ∀ (shape : Shape) (subject : Value) {scope inner : ScopeId}
    {space : SpaceId} {M : Machine}, M.Good a K → M.Fits space (some scope) →
    shape.Ok a K (some scope) inner →
    Safe a K (shape.captures s space subject) (shape.captures s' space subject) M
      fun bindings _ => Captures a inner bindings
  | .expr op, subject, _, inner, _, _, good, fits, ok => by
    rw [Shape.captures, Shape.captures]
    refine (Op.eval_safe op good fits ok).bind fun v M₁ good₁ grows₁ _ => ?_
    cases v with
    | function id signature =>
      refine (serves.call M₁ id [subject] good₁ (fits.grows grows₁).1).bind
        fun w M₂ good₂ _ _ => .pure good₂ (captures_matched inner _)
    | _ => exact .pure good₁ (captures_matched inner _)
  | .any, _, _, _, _, _, good, _, _ => .pure good (captures_some fun b hb => by cases hb)
  | .ofType ty, subject, _, inner, _, _, good, _, _ => .pure good (captures_matched inner _)
  | .list items, subject, _, inner, _, _, good, fits, ok => by
    cases subject with
    | list id values =>
      rw [Shape.captures, Shape.captures]
      split
      · exact capturesOfAll_safe items values good fits ok
      · exact .pure good (captures_none inner)
    | _ => exact .pure good (captures_none inner)
  | .headTail head tail, subject, _, inner, _, _, good, fits, ok => by
    cases subject with
    | list id values =>
      rw [Shape.captures, Shape.captures]
      split
      · exact .pure good (captures_none inner)
      · refine (capturesOfAll_safe head values good fits ok.1).bind
          fun bindings M₁ good₁ _ captured => ?_
        cases bindings with
        | none => exact .pure good₁ (captures_none inner)
        | some bindings =>
          exact (bindList_safe good₁ ok.2 _).bind fun more _ good₂ _ received =>
            .pure good₂ (captures_append captured received)
    | _ => exact .pure good (captures_none inner)
  | .initLast init last, subject, _, inner, _, _, good, fits, ok => by
    cases subject with
    | list id values =>
      rw [Shape.captures, Shape.captures]
      split
      · exact .pure good (captures_none inner)
      · refine (capturesOfAll_safe last _ good fits ok.2).bind
          fun bindings M₁ good₁ _ captured => ?_
        cases bindings with
        | none => exact .pure good₁ (captures_none inner)
        | some bindings =>
          exact (bindList_safe good₁ ok.1 _).bind fun more _ good₂ _ received =>
            .pure good₂ (captures_append captured received)
    | _ => exact .pure good (captures_none inner)
  | .middle head mid last, subject, _, inner, _, _, good, fits, ok => by
    cases subject with
    | list id values =>
      rw [Shape.captures, Shape.captures]
      split
      · exact .pure good (captures_none inner)
      · refine (capturesOfAll_safe head values good fits ok.1).bind
          fun first M₁ good₁ grows₁ captured => ?_
        cases first with
        | none => exact .pure good₁ (captures_none inner)
        | some first =>
          refine (capturesOfAll_safe last _ good₁ (fits.grows grows₁) ok.2.2).bind
            fun second M₂ good₂ _ captured' => ?_
          cases second with
          | none => exact .pure good₂ (captures_none inner)
          | some second =>
            exact (bindList_safe good₂ ok.2.1 _).bind fun more _ good₃ _ received =>
              .pure good₃ (captures_append (captures_append captured (captured' _ rfl)) received)
    | _ => exact .pure good (captures_none inner)
  | .dict entries, subject, _, inner, _, _, good, fits, ok => by
    cases subject with
    | dict id found =>
      rw [Shape.captures, Shape.captures]
      split
      · exact capturesOfEntries_safe entries found good fits ok
      · exact .pure good (captures_none inner)
    | _ => exact .pure good (captures_none inner)
  | .openDict entries rest, subject, _, inner, _, _, good, fits, ok => by
    cases subject with
    | dict id found =>
      rw [Shape.captures, Shape.captures]
      refine (capturesOfEntries_safe entries found good fits ok.1).bind
        fun bindings M₁ good₁ _ captured => ?_
      cases bindings with
      | none => exact .pure good₁ (captures_none inner)
      | some bindings =>
        exact (bindDict_safe good₁ ok.2 _).bind fun more _ good₂ _ received =>
          .pure good₂ (captures_append captured received)
    | _ => exact .pure good (captures_none inner)

theorem capturesOfAll_safe : ∀ (ps : List Pattern) (values : List Value) {scope inner : ScopeId}
    {space : SpaceId} {M : Machine}, M.Good a K → M.Fits space (some scope) →
    patternsOk a K (some scope) inner ps →
    Safe a K (capturesOfAll s space values ps) (capturesOfAll s' space values ps) M
      fun bindings _ => Captures a inner bindings
  | [], _, _, _, _, _, good, _, _ => .pure good (captures_some fun b hb => by cases hb)
  | p :: rest, values, _, inner, _, _, good, fits, ok => by
    cases values with
    | nil => exact .pure good (captures_some fun b hb => by cases hb)
    | cons v values =>
      rw [capturesOfAll, capturesOfAll]
      refine (Pattern.captures_safe p v good fits ok.1).bind
        fun first M₁ good₁ grows₁ captured => ?_
      cases first with
      | none => exact .pure good₁ (captures_none inner)
      | some first =>
        refine (capturesOfAll_safe rest values good₁ (fits.grows grows₁) ok.2).bind
          fun more M₂ good₂ _ captured' => ?_
        cases more with
        | none => exact .pure good₂ (captures_none inner)
        | some more => exact .pure good₂ (captures_append captured (captured' _ rfl))

theorem capturesOfEntries_safe : ∀ (entries : List KeyPattern) (found : Entries Value)
    {scope inner : ScopeId} {space : SpaceId} {M : Machine}, M.Good a K →
    M.Fits space (some scope) → keyPatternsOk a K (some scope) inner entries →
    Safe a K (capturesOfEntries s space found entries) (capturesOfEntries s' space found entries) M
      fun bindings _ => Captures a inner bindings
  | [], _, _, _, _, _, good, _, _ => .pure good (captures_some fun b hb => by cases hb)
  | ⟨key, p⟩ :: rest, found, _, inner, _, _, good, fits, ok => by
    rw [capturesOfEntries, capturesOfEntries]
    cases found.get? key with
    | none => exact .pure good (captures_none inner)
    | some v =>
      refine (Pattern.captures_safe p v good fits ok.1).bind
        fun first M₁ good₁ grows₁ captured => ?_
      cases first with
      | none => exact .pure good₁ (captures_none inner)
      | some first =>
        refine (capturesOfEntries_safe rest found good₁ (fits.grows grows₁) ok.2).bind
          fun more M₂ good₂ _ captured' => ?_
        cases more with
        | none => exact .pure good₂ (captures_none inner)
        | some more => exact .pure good₂ (captures_append captured (captured' _ rfl))

end

end Eval

end Code

end CellScript
