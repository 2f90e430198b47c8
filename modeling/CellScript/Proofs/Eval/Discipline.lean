import CellScript.Proofs.Eval.Binding
import CellScript.Proofs.Eval.Patterns

/-!
# Operations ask only for what is bound

Where a space is equipped for what an operation looks at, the operation is evaluated with care: it
asks only for cells that are bound or computed, binds only cells that have no value, and binds none
that was there before.

* `Code.Op.eval_careful` — by recursion over the operation, with one statement for each of its parts
-/

namespace CellScript

variable {a : Analysis} {K : FunctionId → Ty → Prop} {s s' : Supply} {n : Nat}

/-- What watches has no reason to interfere with a careful step. -/
theorem Supply.Attends.watches (attends : s.Attends a K s') (op : Code.Op) {M : Machine}
    {space : SpaceId} {σ : Option ScopeId} {below : Nat → Nat → Prop} {x y : Eval Value}
    (h : M.Hosts a K n space σ below) (ok : op.Ok a K σ)
    (careful : Careful a K n x y M fun v _ => op.staticType.Admits v) :
    Careful a K n (s.watch op space x) (s'.watch op space y) M fun v _ =>
      op.staticType.Admits v := by
  have allows := attends.watch M op σ space x y h.toGood h.fits ok
    (careful.1.mono fun _ _ _ _ holds => holds.1)
  rw [attends.idle]
  exact ⟨⟨allows.1, careful.1.2⟩, careful.2⟩

/-- The second step ends as has been computed. -/
theorem Careful.also {α : Type} {x y : Eval α} {M : Machine} {P : α → Machine → Prop}
    (h : Careful a K n x y M P) : Careful a K n x y M fun v M' => P v M' ∧ y M = .ok v M' := by
  refine ⟨⟨h.1.1, ?_⟩, h.2⟩
  have outcome := h.1.2
  cases hy : y M with
  | ok v M' =>
    obtain ⟨goes, holds⟩ := h.goes hy
    exact ⟨goes.toPasses, ⟨holds, rfl⟩, goes.toMinds⟩
  | error stop M' =>
    rw [hy] at outcome
    exact outcome

namespace Eval

variable {M : Machine} {σ : ScopeId}

theorem newList_careful (tidy : M.Tidy a K n) (items : List Value) :
    Careful a K n (newList items) (newList items) M fun v _ => v.ty = .list :=
  (Careful.lift tidy (.newList items) (newList_safe tidy.toGood items)).mono fun _ _ _ h => h.1

theorem newDict_careful (tidy : M.Tidy a K n) (entries : Entries Value) :
    Careful a K n (newDict entries) (newDict entries) M fun v _ => v.ty = .dict :=
  (Careful.lift tidy (.newDict entries) (newDict_safe tidy.toGood entries)).mono fun _ _ _ h => h.1

theorem curry_careful (tidy : M.Tidy a K n) (id : FunctionId) (args : List (String × Value)) :
    Careful a K n (curry id args) (curry id args) M fun v _ => v.ty = .function :=
  (Careful.lift tidy (.curry id args) (curry_safe tidy.toGood id args)).mono fun _ _ _ h => h.1

theorem bindList_careful (tidy : M.Tidy a K n) {slot : Option Nat}
    (receives : a.arena.Receives σ slot) (items : List Value) :
    Careful a K n (bindList slot items) (bindList slot items) M
      fun bindings _ => ∀ b ∈ bindings, a.arena.SlotOf σ b.1 .any := by
  refine (Careful.lift tidy ?_ (bindList_safe tidy.toGood receives items)).mono fun _ _ _ h => h.1
  unfold bindList
  cases slot with
  | none => exact .pure _
  | some slot => exact (Still.newList items).bind fun _ => .pure _

theorem bindDict_careful (tidy : M.Tidy a K n) {slot : Option Nat}
    (receives : a.arena.Receives σ slot) (entries : Entries Value) :
    Careful a K n (bindDict slot entries) (bindDict slot entries) M
      fun bindings _ => ∀ b ∈ bindings, a.arena.SlotOf σ b.1 .any := by
  refine (Careful.lift tidy ?_ (bindDict_safe tidy.toGood receives entries)).mono fun _ _ _ h => h.1
  unfold bindDict
  cases slot with
  | none => exact .pure _
  | some slot => exact (Still.newDict entries).bind fun _ => .pure _

/-- A new closure leaves all spaces alone. -/
theorem newClosure_careful (tidy : M.Tidy a K n) {captured : List Captured}
    {symbols : List SymbolId}
    (ok : List.Forall₂ (fun t c => Captured.Ok M.memory t c) symbols captured) :
    Careful a K n (newClosure captured) (newClosure captured) M
      fun id M' => M'.memory.Closes symbols id := by
  refine (Careful.lift tidy (fun M' => ?_) (newClosure_safe tidy.toGood ok)).mono fun _ _ _ h => h.1
  rw [newClosure_eq]
  rfl

section Calls

variable (attends : s.Attends a K s')

include attends

theorem callBound_careful (tidy : M.Tidy a K n) (attached : M.context.units.isSome = true)
    (id : FunctionId) (args : List CallArgument) :
    Careful a K n (callBound s id args) (callBound s' id args) M fun _ _ => True := by
  unfold callBound
  cases hb : (M.memory.function id).bind args with
  | ok values =>
    refine Careful.found (ask_of_ok hb) ?_
    exact (attends.call id values tidy attached).mono fun _ _ _ _ => trivial
  | error e =>
    have raises : ∀ f : List Value → Eval Value,
        (ask (fun m => (m.function id).bind args) >>= f) M = (raise e : Eval Value) M := fun f => by
      refine bind_of_error ?_ f
      show ofExcept ((M.memory.function id).bind args) M = _
      rw [hb]
      rfl
    have raised : Careful a K n (raise e : Eval Value) (raise e) M fun _ _ => True :=
      .raise tidy (FunctionObject.bind_orderly _ args e hb).1
    refine ⟨⟨(raises _).trans (raises _).symm, ?_⟩, fun stop M' hy =>
      raised.2 stop M' ((raises _).symm.trans hy)⟩
    exact (raises _).symm ▸ raised.1.2

theorem callWith_careful (tidy : M.Tidy a K n) (attached : M.context.units.isSome = true)
    (id : FunctionId) (args : List CallArgument) :
    Careful a K n (callWith s id args) (callWith s' id args) M fun _ _ => True := by
  unfold callWith
  split
  · next values _ => exact (attends.call id values tidy attached).mono fun _ _ _ _ => trivial
  · exact callBound_careful attends tidy attached id args

end Calls

end Eval

namespace Code

open Eval

section Eval

variable (attends : s.Attends a K s') (rooted : a.Rooted)

include attends rooted

set_option linter.unusedSectionVars false

mutual

/-- **An operation is evaluated with care** in a space that is equipped for what it looks at. -/
theorem Op.eval_careful :
    ∀ (op : Op) {n : Nat} {σ : Option ScopeId} {space : SpaceId} {M : Machine},
    M.Hosts a K n space σ (fun count depth => op.Below count depth) → op.Ok a K σ →
    Careful a K n (op.eval s space) (op.eval s' space) M fun v _ => op.staticType.Admits v
  | ⟨span, action⟩, n, σ, space, M, h, ok => by
    rw [Op.eval, Op.eval]
    exact attends.watches ⟨span, action⟩ h ok ((Action.eval_careful action h ok).located span)

theorem Action.eval_careful : ∀ (action : Action) {n : Nat} {σ : Option ScopeId} {space : SpaceId}
    {M : Machine}, M.Hosts a K n space σ (fun count depth => action.Below count depth) →
    action.Ok a K σ →
    Careful a K n (action.eval s space) (action.eval s' space) M fun v _ =>
      action.staticType.Admits v
  | .constant v, _, _, _, _, h, _ => .pure h.toTidy (Ty.admits_ty v)
  | .fail fault, _, _, _, _, h, ok => .raise h.toTidy ok
  | .reference ref _, _, _, _, _, h, ⟨scope, r, hσ, _, leads⟩ => by
    subst hσ
    exact (reference_careful attends rooted h leads).mono fun _ _ _ holds => holds.admits
  | .list items, _, _, _, _, h, ok => by
    rw [Action.eval, Action.eval]
    refine (evalItems_careful items h ok).bind h.toTidy fun vs M' goes _ => ?_
    exact (newList_careful (h.toTidy.later goes) vs).mono fun v _ _ ty => .inl (.inr (.inr ty))
  | .patchedList segments, _, _, _, _, h, ok => by
    rw [Action.eval, Action.eval]
    refine (evalListSegments_careful segments h ok).bind h.toTidy fun vs M' goes _ => ?_
    exact (newList_careful (h.toTidy.later goes) vs).mono fun v _ _ ty => .inl (.inr (.inr ty))
  | .dict entries, _, _, _, _, h, ok => by
    rw [Action.eval, Action.eval]
    refine (evalEntries_careful entries [] h ok).bind h.toTidy fun es M' goes _ => ?_
    exact (newDict_careful (h.toTidy.later goes) es).mono fun v _ _ ty => .inl (.inr (.inr ty))
  | .mergedDict segments, _, _, _, _, h, ok => by
    rw [Action.eval, Action.eval]
    refine (evalDictSegments_careful segments [] h ok).bind h.toTidy fun es M' goes _ => ?_
    exact (newDict_careful (h.toTidy.later goes) es).mono fun v _ _ ty => .inl (.inr (.inr ty))
  | .function params returns body template captures region, n, σ, space, M, h,
      ⟨hp, k, inner, kind, hTemplate, types, hBody, plans⟩ => by
    rw [Action.eval, Action.eval]
    refine (evalDefaults_careful params (h.imp fun _ _ looks => looks.1) hp).bind h.toTidy
      fun defaults M₁ goes₁ length => ?_
    have h₁ := (h.imp fun _ _ looks => looks.2).later goes₁
    refine (captureAll_careful attends rooted plans h₁).bind h₁.toTidy
      fun captured M₂ goes₂ all => ?_
    have tidy₂ := h₁.toTidy.later goes₂
    refine (newClosure_careful tidy₂ all).bind tidy₂ fun closure M₃ goes₃ closes => ?_
    have tidy₃ := tidy₂.later goes₃
    refine .create ⟨tidy₃.toGood.stepSame (Memory.grows_newFunction _ _)
      (tidy₃.memory.newFunction ?_) rfl (fun _ => rfl) (fun _ _ _ found => found) rfl,
        .of_spaces tidy₃.neat rfl⟩ (Ty.admits_ty _)
    refine ⟨k, inner, kind, hTemplate, hBody, ?_, closes, by simpa using length⟩
    rw [types]
    simp
  | .call callee args, _, σ, _, _, h, ⟨inside, hc, ha⟩ => by
    rw [Action.eval, Action.eval]
    refine (Op.eval_careful callee (h.imp fun _ _ looks => looks.1) hc).bind h.toTidy
      fun v M₁ goes₁ _ => ?_
    have h₁ := (h.imp fun _ _ looks => looks.2).later goes₁
    cases v with
    | function id signature =>
      refine (evalArguments_careful args h₁ ha).bind h₁.toTidy fun vs M₂ goes₂ _ => ?_
      have h₂ := h₁.later goes₂
      obtain ⟨scope, rfl⟩ := Option.isSome_iff_exists.mp inside
      exact (callWith_careful attends h₂.toTidy h₂.fits.1 id vs).mono fun v _ _ _ => Ty.admits_any v
    | _ => exact .raise h₁.toTidy (Exception.ordinary_of _ (by decide))
  | .fixedCall id signature args, _, σ, _, _, h, ⟨inside, known, ha⟩ => by
    rw [Action.eval, Action.eval]
    refine (evalOps_careful args h ha).bind h.toTidy fun vs M₁ goes₁ _ => ?_
    have h₁ := h.later goes₁
    obtain ⟨scope, rfl⟩ := Option.isSome_iff_exists.mp inside
    obtain ⟨units, hu⟩ := Option.isSome_iff_exists.mp h₁.fits.1
    refine (attends.call id vs h₁.toTidy h₁.fits.1).mono fun v _ _ holds => ?_
    rw [((h₁.attached units hu).known id _ known).2] at holds
    exact holds.admits
  | .curry callee args, _, _, _, _, h, ok => by
    rw [Action.eval, Action.eval]
    refine (Op.eval_careful callee (h.imp fun _ _ looks => looks.1) ok.1).bind h.toTidy
      fun v M₁ goes₁ _ => ?_
    have h₁ := (h.imp fun _ _ looks => looks.2).later goes₁
    cases v with
    | function id signature =>
      refine (evalNamed_careful args h₁ ok.2).bind h₁.toTidy fun vs M₂ goes₂ _ => ?_
      exact (curry_careful (h₁.toTidy.later goes₂) id vs).mono fun v _ _ ty => .inl (.inr (.inr ty))
    | _ => exact .raise h₁.toTidy (Exception.ordinary_of _ (by decide))
  | .letIn template body, _, _, _, _, h, ⟨inner, block, hTemplate, hBody, inits⟩ => by
    rw [Action.eval, Action.eval]
    obtain ⟨enters, nested, -⟩ := h.toTidy.child rooted h.fits block hTemplate
    have inside := nested.hosts (body.Below · ·) (h.entered enters).equips (nested.block.full inits)
    exact .within h.toTidy enters (Op.eval_careful body inside hBody) fun v _ _ _ => Ty.admits_any v
  | .ifElse c t e, _, _, _, _, h, ok => by
    rw [Action.eval, Action.eval]
    refine (Op.eval_careful c (h.imp fun _ _ looks => looks.1) ok.1).bind h.toTidy
      fun v M₁ goes₁ _ => ?_
    have h₁ := (h.imp fun _ _ looks => looks.2).later goes₁
    split
    · exact (Op.eval_careful t (h₁.imp fun _ _ looks => looks.1) ok.2.1).mono fun v _ _ _ =>
        Ty.admits_any v
    · exact (Op.eval_careful e (h₁.imp fun _ _ looks => looks.2) ok.2.2).mono fun v _ _ _ =>
        Ty.admits_any v
  | .matchOn subject lines, _, _, _, _, h, ok => by
    rw [Action.eval, Action.eval]
    refine (Op.eval_careful subject (h.imp fun _ _ looks => looks.1) ok.1).bind h.toTidy
      fun v M₁ goes₁ _ => ?_
    have h₁ := (h.imp fun _ _ looks => looks.2).later goes₁
    exact (evalLines_careful lines v h₁ ok.2).mono fun v _ _ _ => Ty.admits_any v
  | .forEach template heads body, _, _, _, _, h,
      ⟨inner, block, hTemplate, hHeads, hBody, ordered, inOrder⟩ => by
    rw [Action.eval, Action.eval]
    obtain ⟨enters, nested, bound⟩ := h.toTidy.child rooted h.fits block hTemplate
    obtain ⟨outer, k, -, kind, -⟩ := block
    have h₁ := h.entered enters
    have values := (runHeads_careful heads (by rw [kind]; rfl) (fun hosts =>
      (Op.eval_careful body hosts hBody).mono fun _ _ _ _ => trivial)
        (.start nested bound) ordered inOrder
      h₁.equips hHeads).bind nested.toTidy fun vs M₂ goes₂ _ =>
        newList_careful (nested.toTidy.later goes₂) vs
    exact .within h.toTidy enters values fun v _ _ _ => Ty.admits_any v
  | .binary op mode l r, _, _, _, _, h, ok => by
    have left := Op.eval_careful l (h.imp fun _ _ looks => looks.1) ok.1
    have right := fun {M' : Machine} (goes : Machine.Goes a K _ _ M') =>
      Op.eval_careful r ((h.imp fun _ _ looks => looks.2).later goes) ok.2
    cases op with
    | and =>
      rw [Action.eval, Action.eval]
      refine left.bind h.toTidy fun v M₁ goes₁ _ => ?_
      have tidy₁ := h.toTidy.later goes₁
      split
      · exact (right goes₁).bind tidy₁ fun w _ goes₂ _ => .pure (tidy₁.later goes₂) (Ty.admits_ty _)
      · exact .pure tidy₁ (Ty.admits_ty _)
    | or =>
      rw [Action.eval, Action.eval]
      refine left.bind h.toTidy fun v M₁ goes₁ _ => ?_
      have tidy₁ := h.toTidy.later goes₁
      split
      · exact .pure tidy₁ (Ty.admits_ty _)
      · exact (right goes₁).bind tidy₁ fun w _ goes₂ _ => .pure (tidy₁.later goes₂) (Ty.admits_ty _)
    | _ =>
      simp only [Action.eval]
      refine left.bind h.toTidy fun v M₁ goes₁ hv => ?_
      have tidy₁ := h.toTidy.later goes₁
      refine (right goes₁).bind tidy₁ fun w M₂ goes₂ hw => ?_
      rw [Value.binaryIn_eq]
      exact .ofExcept (tidy₁.later goes₂) (Value.binary_orderly _ v w)
        fun _ result => Value.binary_admits hv hw result
  | .unary op e, _, _, _, _, h, ok => by
    rw [Action.eval, Action.eval]
    refine (Op.eval_careful e h ok).bind h.toTidy fun v M₁ goes₁ hv => ?_
    refine .ofExcept (h.toTidy.later goes₁) (Value.unary_orderly op v) fun w result => ?_
    have admits := Value.unary_admits hv result
    cases op <;> exact admits
  | .cast e ty, _, _, _, _, h, ok => by
    rw [Action.eval, Action.eval]
    refine (Op.eval_careful e h ok).bind h.toTidy fun v M₁ goes₁ _ => ?_
    exact (cast_careful (h.toTidy.later goes₁) v ty).mono fun w _ _ holds => holds.1.admits
  | .isOf e ty, _, _, _, _, h, ok => by
    rw [Action.eval, Action.eval]
    exact (Op.eval_careful e h ok).bind h.toTidy fun v M₁ goes₁ _ =>
      .pure (h.toTidy.later goes₁) (Ty.admits_ty _)
  | .access container keys, _, _, _, _, h, ok => by
    rw [Action.eval, Action.eval]
    refine (Op.eval_careful container (h.imp fun _ _ looks => looks.1) ok.1).bind h.toTidy
      fun v M₁ goes₁ _ => ?_
    have h₁ := (h.imp fun _ _ looks => looks.2).later goes₁
    refine (evalOps_careful keys h₁ ok.2).bind h₁.toTidy fun vs M₂ goes₂ _ => ?_
    exact .ofExcept (h₁.toTidy.later goes₂) (Value.accessAll_orderly v vs) fun w _ =>
      Ty.admits_any w
  | .keyAccess container key, _, _, _, _, h, ok => by
    rw [Action.eval, Action.eval]
    refine (Op.eval_careful container h ok).bind h.toTidy fun v M₁ goes₁ _ => ?_
    exact .ofExcept (h.toTidy.later goes₁) (Value.access_orderly v key) fun w _ => Ty.admits_any w
  | .tryCatch body template error trace handler, _, _, _, _, h,
      ⟨hBody, inner, block, hTemplate, he, ht, hHandler, slots⟩ => by
    rw [Action.eval, Action.eval]
    refine (Op.eval_careful body (h.imp fun _ _ looks => looks.1) hBody).attempt.bind h.toTidy
      fun r M₁ goes₁ hr => ?_
    have h₁ := (h.imp fun _ _ looks => looks.2).later goes₁
    cases r with
    | ok v => exact .pure h₁.toTidy (Ty.admits_any v)
    | error e =>
      have apart : (error.toList ++ trace.toList).Nodup := slots.nodup_iff.mpr List.nodup_range
      obtain ⟨enters, nested, unbound⟩ := h₁.toTidy.child rooted h₁.fits block hTemplate
      refine Careful.within (P := fun _ _ => True) h₁.toTidy enters ?_ fun v _ _ _ =>
        Ty.admits_any v
      refine (bindCaught_careful attends nested unbound he ht apart e).bind nested.toTidy
        fun _ M₃ goes₃ ⟨nested₃, bound⟩ => ?_
      have full : M₃.memory.Full _ := bound.full fun slot has => slots.mem_iff.mpr
        (List.mem_range.mpr (nested₃.memory.slot_lt nested₃.fits.2.2.1 has))
      have inside := nested₃.hosts (handler.Below · ·) ((h₁.entered enters).later goes₃).equips full
      exact (Op.eval_careful handler inside hHandler).mono fun _ _ _ _ => trivial
  | .throw e, _, _, _, _, h, ok => by
    rw [Action.eval, Action.eval]
    refine (Op.eval_careful e h ok).bind h.toTidy fun v M₁ goes₁ _ => ?_
    refine Careful.context ?_
    exact .raise (h.toTidy.later goes₁) ((show (Exception.ofThrown v).Ordinary by
      exact fun h => by cases h).orTrace _)

theorem evalOps_careful : ∀ (ops : List Op) {n : Nat} {σ : Option ScopeId} {space : SpaceId}
    {M : Machine}, M.Hosts a K n space σ (fun count depth => opsBelow count depth ops) →
    opsOk a K σ ops →
    Careful a K n (evalOps s space ops) (evalOps s' space ops) M fun _ _ => True
  | [], _, _, _, _, h, _ => .pure h.toTidy trivial
  | op :: rest, _, _, _, _, h, ok => by
    rw [evalOps, evalOps]
    refine (Op.eval_careful op (h.imp fun _ _ looks => looks.1) ok.1).bind h.toTidy
      fun v M₁ goes₁ _ => ?_
    have h₁ := (h.imp fun _ _ looks => looks.2).later goes₁
    exact (evalOps_careful rest h₁ ok.2).bind h₁.toTidy fun _ _ goes₂ _ =>
      .pure (h₁.toTidy.later goes₂) trivial

theorem evalItems_careful : ∀ (items : List Item) {n : Nat} {σ : Option ScopeId} {space : SpaceId}
    {M : Machine}, M.Hosts a K n space σ (fun count depth => itemsBelow count depth items) →
    itemsOk a K σ items →
    Careful a K n (evalItems s space items) (evalItems s' space items) M fun _ _ => True
  | [], _, _, _, _, h, _ => .pure h.toTidy trivial
  | .value op :: rest, _, _, _, _, h, ok => by
    rw [evalItems, evalItems]
    refine (Op.eval_careful op (h.imp fun _ _ looks => looks.1) ok.1).bind h.toTidy
      fun v M₁ goes₁ _ => ?_
    have h₁ := (h.imp fun _ _ looks => looks.2).later goes₁
    exact (evalItems_careful rest h₁ ok.2).bind h₁.toTidy fun _ _ goes₂ _ =>
      .pure (h₁.toTidy.later goes₂) trivial
  | .splat op :: rest, _, _, _, _, h, ok => by
    rw [evalItems, evalItems]
    refine (Op.eval_careful op (h.imp fun _ _ looks => looks.1) ok.1).bind h.toTidy
      fun v M₁ goes₁ _ => ?_
    have h₁ := (h.imp fun _ _ looks => looks.2).later goes₁
    refine (Careful.orderly h₁.toTidy (Value.spreadItems_orderly v)).bind h₁.toTidy
      fun vs M₂ goes₂ _ => ?_
    have h₂ := h₁.later goes₂
    exact (evalItems_careful rest h₂ ok.2).bind h₂.toTidy fun _ _ goes₃ _ =>
      .pure (h₂.toTidy.later goes₃) trivial

theorem evalListSegments_careful : ∀ (segments : List ListSegment) {n : Nat} {σ : Option ScopeId}
    {space : SpaceId} {M : Machine},
    M.Hosts a K n space σ (fun count depth => listSegmentsBelow count depth segments) →
    listSegmentsOk a K σ segments →
    Careful a K n (evalListSegments s space segments) (evalListSegments s' space segments) M
      fun _ _ => True
  | [], _, _, _, _, h, _ => .pure h.toTidy trivial
  | .constant run :: rest, _, _, _, _, h, ok => by
    rw [evalListSegments, evalListSegments]
    exact (evalListSegments_careful rest h ok).bind h.toTidy fun _ _ goes₁ _ =>
      .pure (h.toTidy.later goes₁) trivial
  | .value op :: rest, _, _, _, _, h, ok => by
    rw [evalListSegments, evalListSegments]
    refine (Op.eval_careful op (h.imp fun _ _ looks => looks.1) ok.1).bind h.toTidy
      fun v M₁ goes₁ _ => ?_
    have h₁ := (h.imp fun _ _ looks => looks.2).later goes₁
    exact (evalListSegments_careful rest h₁ ok.2).bind h₁.toTidy fun _ _ goes₂ _ =>
      .pure (h₁.toTidy.later goes₂) trivial
  | .splat op :: rest, _, _, _, _, h, ok => by
    rw [evalListSegments, evalListSegments]
    refine (Op.eval_careful op (h.imp fun _ _ looks => looks.1) ok.1).bind h.toTidy
      fun v M₁ goes₁ _ => ?_
    have h₁ := (h.imp fun _ _ looks => looks.2).later goes₁
    refine (Careful.orderly h₁.toTidy (Value.spreadItems_orderly v)).bind h₁.toTidy
      fun vs M₂ goes₂ _ => ?_
    have h₂ := h₁.later goes₂
    exact (evalListSegments_careful rest h₂ ok.2).bind h₂.toTidy fun _ _ goes₃ _ =>
      .pure (h₂.toTidy.later goes₃) trivial

theorem evalEntries_careful : ∀ (entries : List Entry) (found : Entries Value) {n : Nat}
    {σ : Option ScopeId} {space : SpaceId} {M : Machine},
    M.Hosts a K n space σ (fun count depth => entriesBelow count depth entries) →
    entriesOk a K σ entries →
    Careful a K n (evalEntries s space found entries) (evalEntries s' space found entries) M
      fun _ _ => True
  | [], _, _, _, _, _, h, _ => .pure h.toTidy trivial
  | .pair k v :: rest, found, _, _, _, _, h, ok => by
    rw [evalEntries, evalEntries]
    refine (Op.eval_careful k (h.imp fun _ _ looks => looks.1) ok.1).bind h.toTidy
      fun key M₁ goes₁ _ => ?_
    have h₁ := (h.imp fun _ _ looks => looks.2).later goes₁
    refine (Careful.orderly h₁.toTidy (Value.toKey_orderly key)).bind h₁.toTidy
      fun key M₂ goes₂ _ => ?_
    have h₂ := h₁.later goes₂
    refine (Op.eval_careful v (h₂.imp fun _ _ looks => looks.1) ok.2.1).bind h₂.toTidy
      fun value M₃ goes₃ _ => ?_
    exact evalEntries_careful rest _ ((h₂.imp fun _ _ looks => looks.2).later goes₃) ok.2.2
  | .splat op :: rest, found, _, _, _, _, h, ok => by
    rw [evalEntries, evalEntries]
    refine (Op.eval_careful op (h.imp fun _ _ looks => looks.1) ok.1).bind h.toTidy
      fun v M₁ goes₁ _ => ?_
    have h₁ := (h.imp fun _ _ looks => looks.2).later goes₁
    refine (Careful.orderly h₁.toTidy (Value.spreadEntries_orderly v)).bind h₁.toTidy
      fun more M₂ goes₂ _ => ?_
    exact evalEntries_careful rest _ (h₁.later goes₂) ok.2

theorem evalDictSegments_careful : ∀ (segments : List DictSegment) (found : Entries Value) {n : Nat}
    {σ : Option ScopeId} {space : SpaceId} {M : Machine},
    M.Hosts a K n space σ (fun count depth => dictSegmentsBelow count depth segments) →
    dictSegmentsOk a K σ segments →
    Careful a K n (evalDictSegments s space found segments)
      (evalDictSegments s' space found segments) M fun _ _ => True
  | [], _, _, _, _, _, h, _ => .pure h.toTidy trivial
  | .constant run :: rest, _, _, _, _, _, h, ok => evalDictSegments_careful rest _ h ok
  | .pair key v :: rest, found, _, _, _, _, h, ok => by
    rw [evalDictSegments, evalDictSegments]
    refine (Op.eval_careful v (h.imp fun _ _ looks => looks.1) ok.1).bind h.toTidy
      fun value M₁ goes₁ _ => ?_
    exact evalDictSegments_careful rest _ ((h.imp fun _ _ looks => looks.2).later goes₁) ok.2
  | .dynamic k v :: rest, found, _, _, _, _, h, ok => by
    rw [evalDictSegments, evalDictSegments]
    refine (Op.eval_careful k (h.imp fun _ _ looks => looks.1) ok.1).bind h.toTidy
      fun key M₁ goes₁ _ => ?_
    have h₁ := (h.imp fun _ _ looks => looks.2).later goes₁
    refine (Careful.orderly h₁.toTidy (Value.toKey_orderly key)).bind h₁.toTidy
      fun key M₂ goes₂ _ => ?_
    have h₂ := h₁.later goes₂
    refine (Op.eval_careful v (h₂.imp fun _ _ looks => looks.1) ok.2.1).bind h₂.toTidy
      fun value M₃ goes₃ _ => ?_
    exact evalDictSegments_careful rest _ ((h₂.imp fun _ _ looks => looks.2).later goes₃) ok.2.2
  | .splat op :: rest, found, _, _, _, _, h, ok => by
    rw [evalDictSegments, evalDictSegments]
    refine (Op.eval_careful op (h.imp fun _ _ looks => looks.1) ok.1).bind h.toTidy
      fun v M₁ goes₁ _ => ?_
    have h₁ := (h.imp fun _ _ looks => looks.2).later goes₁
    refine (Careful.orderly h₁.toTidy (Value.spreadEntries_orderly v)).bind h₁.toTidy
      fun more M₂ goes₂ _ => ?_
    exact evalDictSegments_careful rest _ (h₁.later goes₂) ok.2

theorem evalDefaults_careful :
    ∀ (params : List Param) {n : Nat} {σ : Option ScopeId} {space : SpaceId}
    {M : Machine}, M.Hosts a K n space σ (fun count depth => paramsBelow count depth params) →
    paramsOk a K σ params →
    Careful a K n (evalDefaults s space params) (evalDefaults s' space params) M
      fun vs _ => vs.length = params.length
  | [], _, _, _, _, h, _ => .pure h.toTidy rfl
  | ⟨_, _, none⟩ :: rest, _, _, _, _, h, ok => by
    rw [evalDefaults, evalDefaults]
    exact (evalDefaults_careful rest (h.imp fun _ _ looks => looks.2) ok.2).bind h.toTidy
      fun _ _ goes₁ length => .pure (h.toTidy.later goes₁) (congrArg (· + 1) length)
  | ⟨_, ty, some op⟩ :: rest, _, _, _, _, h, ok => by
    rw [evalDefaults, evalDefaults]
    refine (Op.eval_careful op (h.imp fun _ _ looks => looks.1) ok.1).bind h.toTidy
      fun v M₁ goes₁ _ => ?_
    have h₁ := (h.imp fun _ _ looks => looks.2).later goes₁
    refine (cast_careful h₁.toTidy v ty).bind h₁.toTidy fun w M₂ goes₂ _ => ?_
    have h₂ := h₁.later goes₂
    exact (evalDefaults_careful rest h₂ ok.2).bind h₂.toTidy fun _ _ goes₃ length =>
      .pure (h₂.toTidy.later goes₃) (congrArg (· + 1) length)

theorem evalArguments_careful : ∀ (args : List Argument) {n : Nat} {σ : Option ScopeId}
    {space : SpaceId} {M : Machine},
    M.Hosts a K n space σ (fun count depth => argumentsBelow count depth args) →
    argumentsOk a K σ args →
    Careful a K n (evalArguments s space args) (evalArguments s' space args) M fun _ _ => True
  | [], _, _, _, _, h, _ => .pure h.toTidy trivial
  | .positional op :: rest, _, _, _, _, h, ok | .named _ op :: rest, _, _, _, _, h, ok
  | .splat op :: rest, _, _, _, _, h, ok => by
    rw [evalArguments, evalArguments]
    refine (Op.eval_careful op (h.imp fun _ _ looks => looks.1) ok.1).bind h.toTidy
      fun v M₁ goes₁ _ => ?_
    have h₁ := (h.imp fun _ _ looks => looks.2).later goes₁
    exact (evalArguments_careful rest h₁ ok.2).bind h₁.toTidy fun _ _ goes₂ _ =>
      .pure (h₁.toTidy.later goes₂) trivial

theorem evalNamed_careful : ∀ (args : List Named) {n : Nat} {σ : Option ScopeId} {space : SpaceId}
    {M : Machine}, M.Hosts a K n space σ (fun count depth => namedBelow count depth args) →
    namedOk a K σ args →
    Careful a K n (evalNamed s space args) (evalNamed s' space args) M fun _ _ => True
  | [], _, _, _, _, h, _ => .pure h.toTidy trivial
  | ⟨_, op⟩ :: rest, _, _, _, _, h, ok => by
    rw [evalNamed, evalNamed]
    refine (Op.eval_careful op (h.imp fun _ _ looks => looks.1) ok.1).bind h.toTidy
      fun v M₁ goes₁ _ => ?_
    have h₁ := (h.imp fun _ _ looks => looks.2).later goes₁
    exact (evalNamed_careful rest h₁ ok.2).bind h₁.toTidy fun _ _ goes₂ _ =>
      .pure (h₁.toTidy.later goes₂) trivial

theorem accepts_careful : ∀ (guard : Option Op) {n : Nat} {σ : Option ScopeId} {space : SpaceId}
    {M : Machine}, M.Hosts a K n space σ (fun count depth => optionBelow count depth guard) →
    optionOk a K σ guard →
    Careful a K n (accepts s space guard) (accepts s' space guard) M fun _ _ => True
  | none, _, _, _, _, h, _ => .pure h.toTidy trivial
  | some op, _, _, _, _, h, ok => by
    rw [accepts, accepts]
    exact (Op.eval_careful op h ok).bind h.toTidy fun _ _ goes₁ _ =>
      .pure (h.toTidy.later goes₁) trivial

/-- All slots of a clause are bound when its pattern has matched. -/
theorem evalLines_careful : ∀ (lines : List Line) (subject : Value) {n : Nat} {σ : Option ScopeId}
    {space : SpaceId} {M : Machine},
    M.Hosts a K n space σ (fun count depth => linesBelow count depth lines) → linesOk a K σ lines →
    Careful a K n (evalLines s space subject lines) (evalLines s' space subject lines) M
      fun _ _ => True
  | [], _, _, _, _, _, h, _ => .pure h.toTidy trivial
  | ⟨pattern, template, guard, result⟩ :: rest, subject, _, _, _, _, h,
      ⟨⟨inner, block, hTemplate, hPattern, slots, hGuard, hResult⟩, ok⟩ => by
    rw [evalLines, evalLines]
    obtain ⟨outer, k, rfl, kind, enclosing⟩ := block
    have captures :=
      Pattern.captures_careful pattern subject (h.imp fun _ _ looks => looks.1.1) hPattern
    refine captures.also.bind h.toTidy fun bindings M₁ goes₁ ⟨captured, ran⟩ => ?_
    have h₁ := h.later goes₁
    have others := h₁.imp fun _ _ looks => looks.2
    cases bindings with
    | none => exact evalLines_careful rest subject others ok
    | some bindings =>
      have same : bindings.map (·.1) = pattern.slots := (pattern.matches_of_captures ran).slots_eq
      obtain ⟨enters, nested, bound⟩ :=
        h₁.toTidy.child rooted h₁.fits ⟨outer, k, rfl, kind, enclosing⟩ hTemplate
      have apart : (bindings.map (·.1)).Nodup := by
        rw [same]
        exact slots.nodup_iff.mpr List.nodup_range
      refine (Careful.within (P := fun _ _ => True) h₁.toTidy enters ?_ fun _ _ _ _ => trivial).bind
        h₁.toTidy fun value M₂ goes₂ (_ : True) => ?_
      · refine (bindSlots_careful attends nested.toTidy nested.fits nested.new bound
          (captured _ rfl) apart).bind nested.toTidy fun _ M₃ goes₃ bound₃ => ?_
        have nested₃ := nested.later goes₃
        have full : M₃.memory.Full _ := bound₃.full fun slot has => by
          rw [same]
          exact slots.mem_iff.mpr
            (List.mem_range.mpr (nested₃.memory.slot_lt nested₃.fits.2.2.1 has))
        have around := ((h₁.imp fun _ _ looks => looks.1.2).entered enters).later goes₃
        have clause := nested₃.hosts
          (fun count depth => optionBelow count depth guard ∧ result.Below count depth)
            around.equips full
        refine (accepts_careful guard (clause.imp fun _ _ looks => looks.1) hGuard).bind
          nested₃.toTidy fun holds M₄ goes₄ _ => ?_
        have decided := (clause.imp fun _ _ looks => looks.2).later goes₄
        split
        · exact (Op.eval_careful result decided hResult).bind decided.toTidy
            fun _ _ goes₅ _ => .pure (decided.toTidy.later goes₅) trivial
        · exact .pure decided.toTidy trivial
      · cases value with
        | some v => exact .pure (h₁.toTidy.later goes₂) trivial
        | none => exact evalLines_careful rest subject (others.later goes₂) ok

/-- Each head finds the slots of the heads before it provided, and provides its own. -/
theorem runHeads_careful : ∀ (heads : List Head) {n : Nat} {inner : ScopeId} {t : Template}
    {body body' : SpaceId → Eval Value} {below : Nat → Nat → Prop} {space block : SpaceId}
    {count : Nat} {M : Machine}, (a.arena.scope inner).kind.isDynamic = true →
    (∀ {n : Nat} {copy : SpaceId} {M : Machine}, M.Hosts a K n copy (some inner) below →
      Careful a K n (body copy) (body' copy) M fun _ _ => True) →
    M.Stages a K n t space block inner count → SlotsInOrder t.slots →
    HeadsInOrder t.slots count heads →
      M.memory.Equips a space (fun count depth => t.Below count (depth + 1) ∧
        headsBelow count (depth + 1) heads ∧ below count (depth + 1)) → headsOk a K inner heads →
    Careful a K n (runHeads s body block heads) (runHeads s' body' block heads) M fun _ _ => True
  | [], _, _, _, _, _, _, _, _, _, _, _, hBody, stages, _, all, around, _ => by
    rw [runHeads, runHeads]
    have inside := stages.hosts_all all (around.imp fun _ _ looks => ⟨looks.1, looks.2.2⟩)
    exact (hBody inside).bind stages.toTidy fun _ _ goes₁ _ =>
      .pure (stages.toTidy.later goes₁) trivial
  | .generator slot ty source :: rest, _, _, _, _, _, _, _, block, _, M, dynamic, hBody, stages,
      ordered, ⟨here, awaits, bare, inOrder⟩, around, ok => by
    subst here
    rw [runHeads, runHeads]
    -- Nothing that exists by now is bound from here on, the block included.
    refine Careful.weaken ?_ stages.low
    have stages := stages.now
    have low : block < M.memory.spaces.size := stages.laid.known
    have inside := stages.hosts ordered (source.Below · ·)
      (around.imp fun _ _ looks => ⟨looks.1, looks.2.1.1⟩) (awaits _ (Nat.le_refl _))
    refine (Op.eval_careful source inside ok.2.1).bind stages.toTidy fun v M₁ goes₁ _ => ?_
    have stages₁ := stages.later low goes₁
    refine (Careful.orderly stages₁.toTidy (Value.generated_orderly v)).bind stages₁.toTidy
      fun items M₂ goes₂ _ => ?_
    have stages₂ := stages₁.later low goes₂
    have around₂ :=
      (around.grows goes₁.grows.memory stages.nests).grows goes₂.grows.memory stages₁.nests
    refine (Careful.mapM (R := fun _ _ _ => True) items stages₂.toTidy (fun _ _ _ _ _ _ => trivial)
      fun item _ M₃ goes₃ => ?_).bind stages₂.toTidy fun values M₄ goes₄ _ =>
        .pure (stages₂.toTidy.later goes₄) trivial
    have stages₃ := stages₂.later low goes₃
    have around₃ := around₂.grows goes₃.grows.memory stages₂.nests
    refine iteration_careful attends stages₃ rooted dynamic ok.1 bare item fun grows₄ stages₄ => ?_
    exact runHeads_careful rest dynamic hBody stages₄ ordered inOrder
      ((around₃.grows grows₄.memory stages₃.nests).imp fun _ _ looks =>
        ⟨looks.1, looks.2.1.2, looks.2.2⟩) ok.2.2
  | .definition slot :: rest, _, _, _, _, _, _, _, block, _, M, dynamic, hBody, stages, ordered,
      ⟨here, ⟨shape, init, there, computed⟩, inOrder⟩, around, ok => by
    subst here
    rw [runHeads, runHeads]
    refine Careful.weaken ?_ stages.low
    have stages := stages.now
    have low : block < M.memory.spaces.size := stages.laid.known
    obtain ⟨⟨ty, t, found, -⟩, ok⟩ := ok
    have fits := stages.fits
    obtain ⟨attached, known, scope, ne, alive⟩ := fits
    obtain ⟨has, -⟩ := stages.memory.hasCell known scope ne found
    have same : (M.memory.cell ⟨block, slot⟩).shape = shape :=
      Option.some.inj ((stages.laid.slot has).symm.trans there)
    -- The cell itself is computed, so that all slots up to it are provided.
    have next := stages.next fun bare => by
      rw [same, computed] at bare
      cases bare
    have inside := next.hosts ordered (init.Below · ·)
      (around.imp fun count depth looks => ⟨looks.1, by
        have inits := (template_below_iff _).mp looks.1 shape (List.mem_of_getElem? there)
        rwa [computed] at inits⟩) (ordered slot shape init there computed _ (Nat.le_refl _))
    refine Careful.found (ask_of_ok (stages.memory.cellIn known scope ne found)) ?_
    refine (attends.force stages.toTidy attached ⟨has, .inl alive⟩ fun _ _ =>
      ⟨init, by rw [same, computed], inside.equips⟩).bind stages.toTidy fun v M₁ goes₁ _ => ?_
    exact runHeads_careful rest dynamic hBody (next.later low goes₁) ordered inOrder
      ((around.grows goes₁.grows.memory stages.nests).imp fun _ _ looks =>
        ⟨looks.1, looks.2.1, looks.2.2⟩) ok
  | .condition op :: rest, _, _, _, _, _, _, _, block, _, M, dynamic, hBody, stages, ordered,
      ⟨awaits, inOrder⟩, around, ok => by
    rw [runHeads, runHeads]
    refine Careful.weaken ?_ stages.low
    have stages := stages.now
    have low : block < M.memory.spaces.size := stages.laid.known
    have inside := stages.hosts ordered (op.Below · ·)
      (around.imp fun _ _ looks => ⟨looks.1, looks.2.1.1⟩) (awaits _ (Nat.le_refl _))
    refine (Op.eval_careful op inside ok.1).bind stages.toTidy fun v M₁ goes₁ _ => ?_
    have stages₁ := stages.later low goes₁
    split
    · exact runHeads_careful rest dynamic hBody stages₁ ordered inOrder
        ((around.grows goes₁.grows.memory stages.nests).imp fun _ _ looks =>
          ⟨looks.1, looks.2.1.2, looks.2.2⟩) ok.2
    · exact .pure stages₁.toTidy trivial

theorem Pattern.captures_careful :
    ∀ (p : Pattern) (subject : Value) {n : Nat} {scope inner : ScopeId}
    {space : SpaceId} {M : Machine},
    M.Hosts a K n space (some scope) (fun count depth => p.Below count depth) →
    p.Ok a K (some scope) inner →
    Careful a K n (p.captures s space subject) (p.captures s' space subject) M
      fun bindings _ => Captures a inner bindings
  | ⟨shape, whole⟩, subject, _, _, _, _, _, h, ok => by
    rw [Pattern.captures, Pattern.captures]
    refine (Shape.captures_careful shape subject h ok.1).bind h.toTidy
      fun bindings M₁ goes₁ captured => ?_
    have tidy₁ := h.toTidy.later goes₁
    cases bindings with
    | none => exact .pure tidy₁ (captures_none _)
    | some bindings =>
      refine .pure tidy₁ (captures_append captured fun b hb => ?_)
      obtain ⟨slot, mem, rfl⟩ := List.mem_map.mp hb
      exact ok.2 slot (Option.mem_toList.mp mem)

theorem Shape.captures_careful :
    ∀ (shape : Shape) (subject : Value) {n : Nat} {scope inner : ScopeId}
    {space : SpaceId} {M : Machine},
    M.Hosts a K n space (some scope) (fun count depth => shape.Below count depth) →
    shape.Ok a K (some scope) inner →
    Careful a K n (shape.captures s space subject) (shape.captures s' space subject) M
      fun bindings _ => Captures a inner bindings
  | .expr op, subject, _, _, inner, _, _, h, ok => by
    rw [Shape.captures, Shape.captures]
    refine (Op.eval_careful op h ok).bind h.toTidy fun v M₁ goes₁ _ => ?_
    have h₁ := h.later goes₁
    cases v with
    | function id signature =>
      refine (attends.call id [subject] h₁.toTidy h₁.fits.1).bind h₁.toTidy
        fun w M₂ goes₂ _ => .pure (h₁.toTidy.later goes₂) (captures_matched inner _)
    | _ => exact .pure h₁.toTidy (captures_matched inner _)
  | .any, _, _, _, _, _, _, h, _ => .pure h.toTidy (captures_some fun b hb => by cases hb)
  | .ofType ty, subject, _, _, inner, _, _, h, _ => .pure h.toTidy (captures_matched inner _)
  | .list items, subject, _, _, inner, _, _, h, ok => by
    cases subject with
    | list id values =>
      rw [Shape.captures, Shape.captures]
      split
      · exact capturesOfAll_careful items values h ok
      · exact .pure h.toTidy (captures_none inner)
    | _ => exact .pure h.toTidy (captures_none inner)
  | .headTail head tail, subject, _, _, inner, _, _, h, ok => by
    cases subject with
    | list id values =>
      rw [Shape.captures, Shape.captures]
      split
      · exact .pure h.toTidy (captures_none inner)
      · refine (capturesOfAll_careful head values h ok.1).bind h.toTidy
          fun bindings M₁ goes₁ captured => ?_
        have tidy₁ := h.toTidy.later goes₁
        cases bindings with
        | none => exact .pure tidy₁ (captures_none inner)
        | some bindings =>
          exact (bindList_careful tidy₁ ok.2 _).bind tidy₁ fun more _ goes₂ received =>
            .pure (tidy₁.later goes₂) (captures_append captured received)
    | _ => exact .pure h.toTidy (captures_none inner)
  | .initLast init last, subject, _, _, inner, _, _, h, ok => by
    cases subject with
    | list id values =>
      rw [Shape.captures, Shape.captures]
      split
      · exact .pure h.toTidy (captures_none inner)
      · refine (capturesOfAll_careful last _ h ok.2).bind h.toTidy
          fun bindings M₁ goes₁ captured => ?_
        have tidy₁ := h.toTidy.later goes₁
        cases bindings with
        | none => exact .pure tidy₁ (captures_none inner)
        | some bindings =>
          exact (bindList_careful tidy₁ ok.1 _).bind tidy₁ fun more _ goes₂ received =>
            .pure (tidy₁.later goes₂) (captures_append captured received)
    | _ => exact .pure h.toTidy (captures_none inner)
  | .middle head mid last, subject, _, _, inner, _, _, h, ok => by
    cases subject with
    | list id values =>
      rw [Shape.captures, Shape.captures]
      split
      · exact .pure h.toTidy (captures_none inner)
      · refine (capturesOfAll_careful head values (h.imp fun _ _ looks => looks.1) ok.1).bind
          h.toTidy fun first M₁ goes₁ captured => ?_
        have h₁ := h.later goes₁
        cases first with
        | none => exact .pure h₁.toTidy (captures_none inner)
        | some first =>
          refine (capturesOfAll_careful last _ (h₁.imp fun _ _ looks => looks.2) ok.2.2).bind
            h₁.toTidy fun second M₂ goes₂ captured' => ?_
          have tidy₂ := h₁.toTidy.later goes₂
          cases second with
          | none => exact .pure tidy₂ (captures_none inner)
          | some second =>
            exact (bindList_careful tidy₂ ok.2.1 _).bind tidy₂ fun more _ goes₃ received =>
              .pure (tidy₂.later goes₃)
                (captures_append (captures_append captured (captured' _ rfl)) received)
    | _ => exact .pure h.toTidy (captures_none inner)
  | .dict entries, subject, _, _, inner, _, _, h, ok => by
    cases subject with
    | dict id found =>
      rw [Shape.captures, Shape.captures]
      split
      · exact capturesOfEntries_careful entries found h ok
      · exact .pure h.toTidy (captures_none inner)
    | _ => exact .pure h.toTidy (captures_none inner)
  | .openDict entries rest, subject, _, _, inner, _, _, h, ok => by
    cases subject with
    | dict id found =>
      rw [Shape.captures, Shape.captures]
      refine (capturesOfEntries_careful entries found h ok.1).bind h.toTidy
        fun bindings M₁ goes₁ captured => ?_
      have tidy₁ := h.toTidy.later goes₁
      cases bindings with
      | none => exact .pure tidy₁ (captures_none inner)
      | some bindings =>
        exact (bindDict_careful tidy₁ ok.2 _).bind tidy₁ fun more _ goes₂ received =>
          .pure (tidy₁.later goes₂) (captures_append captured received)
    | _ => exact .pure h.toTidy (captures_none inner)

theorem capturesOfAll_careful : ∀ (ps : List Pattern) (values : List Value) {n : Nat}
    {scope inner : ScopeId} {space : SpaceId} {M : Machine},
    M.Hosts a K n space (some scope) (fun count depth => patternsBelow count depth ps) →
    patternsOk a K (some scope) inner ps →
    Careful a K n (capturesOfAll s space values ps) (capturesOfAll s' space values ps) M
      fun bindings _ => Captures a inner bindings
  | [], _, _, _, _, _, _, h, _ => .pure h.toTidy (captures_some fun b hb => by cases hb)
  | p :: rest, values, _, _, inner, _, _, h, ok => by
    cases values with
    | nil => exact .pure h.toTidy (captures_some fun b hb => by cases hb)
    | cons v values =>
      rw [capturesOfAll, capturesOfAll]
      refine (Pattern.captures_careful p v (h.imp fun _ _ looks => looks.1) ok.1).bind h.toTidy
        fun first M₁ goes₁ captured => ?_
      have h₁ := (h.imp fun _ _ looks => looks.2).later goes₁
      cases first with
      | none => exact .pure h₁.toTidy (captures_none inner)
      | some first =>
        refine (capturesOfAll_careful rest values h₁ ok.2).bind h₁.toTidy
          fun more M₂ goes₂ captured' => ?_
        have tidy₂ := h₁.toTidy.later goes₂
        cases more with
        | none => exact .pure tidy₂ (captures_none inner)
        | some more => exact .pure tidy₂ (captures_append captured (captured' _ rfl))

theorem capturesOfEntries_careful : ∀ (entries : List KeyPattern) (found : Entries Value) {n : Nat}
    {scope inner : ScopeId} {space : SpaceId} {M : Machine},
    M.Hosts a K n space (some scope) (fun count depth => keyPatternsBelow count depth entries) →
    keyPatternsOk a K (some scope) inner entries →
    Careful a K n (capturesOfEntries s space found entries)
      (capturesOfEntries s' space found entries) M fun bindings _ => Captures a inner bindings
  | [], _, _, _, _, _, _, h, _ => .pure h.toTidy (captures_some fun b hb => by cases hb)
  | ⟨key, p⟩ :: rest, found, _, _, inner, _, _, h, ok => by
    rw [capturesOfEntries, capturesOfEntries]
    cases found.get? key with
    | none => exact .pure h.toTidy (captures_none inner)
    | some v =>
      refine (Pattern.captures_careful p v (h.imp fun _ _ looks => looks.1) ok.1).bind h.toTidy
        fun first M₁ goes₁ captured => ?_
      have h₁ := (h.imp fun _ _ looks => looks.2).later goes₁
      cases first with
      | none => exact .pure h₁.toTidy (captures_none inner)
      | some first =>
        refine (capturesOfEntries_careful rest found h₁ ok.2).bind h₁.toTidy
          fun more M₂ goes₂ captured' => ?_
        have tidy₂ := h₁.toTidy.later goes₂
        cases more with
        | none => exact .pure tidy₂ (captures_none inner)
        | some more => exact .pure tidy₂ (captures_append captured (captured' _ rfl))

end

end Eval

end Code

end CellScript
