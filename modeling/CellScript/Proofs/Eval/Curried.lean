import CellScript.Eval.Demand
import CellScript.Eval.Lemmas
import CellScript.Memory.Lemmas
import CellScript.Proofs.Eval.Arrangements
import CellScript.Proofs.Eval.Grows
import CellScript.Proofs.Value.Conversions
import Mathlib.Data.List.Forall2
import Mathlib.Data.List.Nodup

/-!
# Currying

Currying fixes parameters of a function by name. A value that is given is converted when the
function is made, so that a container which the conversion creates is the same one in all calls; the
function passes what it is called with on to its target. Some functions write what they pass on into
a buffer that others have used before. All buffers of the pool are empty whenever a call begins, so
nothing is left in them.

* `FunctionObject.Fixes`, `FunctionObject.Curries` — what is fixed, and what is left
* `Eval.of_curry_eq_ok`, `Eval.curry_of_takes` — what currying makes, and when it succeeds
* `Eval.forward_eq` — with empty buffers all adapters hand on the same arguments
* `Machine.forwards_curried` — a call of a curried function is a call of its target
* `Memory.Made.call_congr` — calls do not tell apart what conversions do not tell apart
* `Eval.curry_agrees` — currying agrees with direct calls, and currying twice with currying once
-/

namespace CellScript

open Eval FunctionObject

theorem Eval.cast_congr {v w : Value} {ty : Ty} (alike : v.CastAlike ty w) :
    Eval.cast v ty = Eval.cast w ty := by
  unfold Eval.cast
  congr 1
  funext i
  rw [alike i]

/-! ## What is fixed -/

/-- The value given for a name, the last one if there are several. -/
def lastGiven (given : List (String × Value)) (name : String) : Option Value :=
  given.reverse.lookup name

section Given

variable {given more : List (String × Value)} {name : String} {v : Value}

theorem lastGiven_append (given more : List (String × Value)) (name : String) :
    lastGiven (given ++ more) name = (lastGiven more name).or (lastGiven given name) := by
  rw [lastGiven, List.reverse_append, List.lookup_append]
  rfl

theorem lastGiven_singleton (other : String) (v : Value) (name : String) :
    lastGiven [(other, v)] name = if name == other then some v else none := by
  simp only [lastGiven, List.reverse_singleton, List.lookup_cons, List.lookup_nil]
  cases name == other <;> rfl

theorem mem_of_lastGiven (h : lastGiven given name = some v) : (name, v) ∈ given := by
  obtain ⟨before, after, same, -⟩ := List.lookup_eq_some_iff.mp h
  exact List.mem_reverse.mp (same ▸ List.mem_append_right _ (List.mem_cons_self ..))

end Given

/-- What holds the place of a parameter: nothing if no value is given for it, and else the last
value given, converted to its type. -/
inductive Holder (given : List (String × Value)) (param : Ty × String) : Option Value → Prop
  | free (h : lastGiven given param.2 = none) : Holder given param none
  | fixed {v w : Value} (i : ObjectId) (h : lastGiven given param.2 = some v)
      (converted : v.cast i param.1 = .ok w) : Holder given param (some w)

namespace FunctionObject

variable (f : FunctionObject) (given : List (String × Value))

/-- Each parameter has its holder. -/
def Fixes (fixed : List (Option Value)) : Prop :=
  List.Forall₂ (Holder given) f.signature.params fixed

/-- The values as they were given. -/
def asGiven : List (Option Value) := f.signature.params.map fun param => lastGiven given param.2

/-- No conversion of what is given creates anything. -/
def Plain : Prop :=
  ∀ param ∈ f.signature.params, ∀ v, lastGiven given param.2 = some v → v.CastsPlainly param.1

/-- `g` has what is left of `f`: the parameters that no value is given for, in their order, with
their types and defaults. -/
structure Curries (g : FunctionObject) (fixed : List (Option Value)) : Prop where
  fixes : f.Fixes given fixed
  params : g.signature.params =
    f.signature.params.filter fun param => (lastGiven given param.2).isNone
  returns : g.signature.returns = f.signature.returns
  defaults : g.defaults = ((f.signature.params.zip f.defaults).filter
    fun entry => (lastGiven given entry.1.2).isNone).map (·.2)

/-- A value can be fixed: there is a parameter of the name, and the value converts to its type. -/
def Takes (entry : String × Value) : Prop :=
  ∃ ty, (ty, entry.1) ∈ f.signature.params ∧ ∃ i w, entry.2.cast i ty = .ok w

end FunctionObject

/-! ## Fixing parameters -/

section Fixing

variable {f : FunctionObject} {given more : List (String × Value)} {fixed : List (Option Value)}
  {M M' : Machine}

theorem forall₂_iff_getElem? {α β : Type} {R : α → β → Prop} {as : List α} {bs : List β} :
    List.Forall₂ R as bs ↔ as.length = bs.length ∧
      ∀ (i : Nat) a b, as[i]? = some a → bs[i]? = some b → R a b := by
  rw [List.forall₂_iff_get]
  refine and_congr_right fun _ => ⟨fun h i a b ha hb => ?_, fun h i _ _ => ?_⟩
  · obtain ⟨ia, rfl⟩ := List.getElem?_eq_some_iff.mp ha
    obtain ⟨ib, rfl⟩ := List.getElem?_eq_some_iff.mp hb
    exact h i ia ib
  · exact h i _ _ (List.getElem?_eq_getElem _) (List.getElem?_eq_getElem _)

/-- With distinct names, a name denotes a parameter only by its own place. -/
theorem indexOf?_eq_some_iff {s : Signature} (distinct : (s.params.map (·.2)).Nodup)
    {name : String} {index : Nat} :
    s.indexOf? name = some index ↔ ∃ ty, s.params[index]? = some (ty, name) := by
  rw [Signature.indexOf?, List.findIdx?_eq_some_iff_getElem]
  constructor
  · rintro ⟨lt, named, -⟩
    exact ⟨s.params[index].1, by rw [List.getElem?_eq_getElem lt, ← eq_of_beq named]⟩
  · rintro ⟨ty, found⟩
    obtain ⟨lt, same⟩ := List.getElem?_eq_some_iff.mp found
    refine ⟨lt, by rw [same]; exact beq_self_eq_true name, fun j before named => ?_⟩
    have twice : (s.params.map (·.2))[j]? = (s.params.map (·.2))[index]? := by
      rw [List.getElem?_map, List.getElem?_map, found,
        List.getElem?_eq_getElem (Nat.lt_trans before lt), Option.map_some, Option.map_some,
        eq_of_beq named]
    have inside : j < (s.params.map (·.2)).length := by
      rw [List.length_map]
      exact Nat.lt_trans before lt
    exact Nat.ne_of_lt before ((List.getElem?_inj inside distinct).mp twice)

/-- At first nothing is fixed. -/
theorem fixes_nil (f : FunctionObject) : f.Fixes [] (f.signature.params.map fun _ => none) := by
  rw [Fixes, List.forall₂_map_right_iff, List.forall₂_same]
  exact fun param _ => .free rfl

/-- Fixing one more parameter. -/
theorem FunctionObject.Fixes.set (fixes : f.Fixes given fixed)
    (distinct : (f.signature.params.map (·.2)).Nodup)
    {index : Nat} {ty : Ty} {name : String} (found : f.signature.params[index]? = some (ty, name))
    {i : ObjectId} {v w : Value} (converted : v.cast i ty = .ok w) :
    f.Fixes (given ++ [(name, v)]) (fixed.set index (some w)) := by
  rw [Fixes, forall₂_iff_getElem?] at fixes ⊢
  refine ⟨by rw [List.length_set, fixes.1], fun j param holder hp hh => ?_⟩
  have last : lastGiven (given ++ [(name, v)]) param.2 =
      if param.2 == name then some v else lastGiven given param.2 := by
    rw [lastGiven_append, lastGiven_singleton]
    split <;> rfl
  rw [List.getElem?_set] at hh
  split at hh
  · next same =>
    subst same
    rw [found] at hp
    cases hp
    split at hh
    · cases hh
      exact .fixed i (by rw [last, if_pos (beq_self_eq_true name)]) converted
    · cases hh
  · next apart =>
    -- The name is that of another parameter.
    have other : (param.2 == name) = false := by
      refine beq_false_of_ne fun same => apart ?_
      have here := (indexOf?_eq_some_iff distinct).mpr ⟨ty, found⟩
      have hp' : f.signature.params[j]? = some (param.1, name) := by rw [hp, ← same]
      have there := (indexOf?_eq_some_iff distinct).mpr ⟨param.1, hp'⟩
      exact Option.some.inj (here.symm.trans there)
    rw [other] at last
    cases fixes.2 j param holder hp hh with
    | free h => exact .free (last.trans h)
    | fixed k h converted => exact .fixed k (last.trans h) converted

/-- What fixing one more parameter does. -/
theorem fix_eq (distinct : (f.signature.params.map (·.2)).Nodup) {index : Nat} {ty : Ty}
    {name : String} (found : f.signature.params[index]? = some (ty, name))
    (fixed : List (Option Value)) (v : Value) :
    f.fix fixed name v = do return fixed.set index (some (← Eval.cast v ty)) := by
  rw [fix, (indexOf?_eq_some_iff distinct).mpr ⟨ty, found⟩]
  simp only [found]
  rfl

theorem newObject_apply (M : Machine) :
    create Memory.newObject M = .ok M.memory.objects { M with memory := M.memory.newObject.2 } :=
  rfl

theorem cast_of_ok {v w : Value} {ty : Ty} (h : v.cast M.memory.objects ty = .ok w) :
    Eval.cast v ty M = .ok w { M with memory := M.memory.newObject.2 } := by
  rw [Eval.cast, bind_of_ok (newObject_apply M), h]
  rfl

theorem of_cast_eq_ok {v w : Value} {ty : Ty} (h : Eval.cast v ty M = .ok w M') :
    v.cast M.memory.objects ty = .ok w ∧ M' = { M with memory := M.memory.newObject.2 } := by
  rw [Eval.cast, bind_of_ok (newObject_apply M)] at h
  cases hv : v.cast M.memory.objects ty with
  | error e =>
    rw [hv] at h
    cases h
  | ok w' =>
    rw [hv] at h
    cases h
    exact ⟨rfl, rfl⟩

/-- Fixing one more parameter, when it succeeds. -/
theorem of_fix_eq_ok (fixes : f.Fixes given fixed) (distinct : (f.signature.params.map (·.2)).Nodup)
    {entry : String × Value} {fixed' : List (Option Value)}
    (h : f.fix fixed entry.1 entry.2 M = .ok fixed' M') :
    f.Takes entry ∧ f.Fixes (given ++ [entry]) fixed' ∧
      M'.memory.functions = M.memory.functions := by
  cases hi : f.signature.indexOf? entry.1 with
  | none =>
    rw [fix, hi] at h
    cases h
  | some index =>
    obtain ⟨ty, found⟩ := (indexOf?_eq_some_iff distinct).mp hi
    rw [fix_eq distinct found] at h
    cases hc : Eval.cast entry.2 ty M with
    | error e M₁ =>
      rw [bind_of_error hc] at h
      cases h
    | ok w M₁ =>
      rw [bind_of_ok hc] at h
      cases h
      obtain ⟨converted, rfl⟩ := of_cast_eq_ok hc
      exact ⟨⟨ty, List.mem_of_getElem? found, _, _, converted⟩,
        fixes.set distinct found converted, rfl⟩

/-- What can be fixed is fixed. -/
theorem fix_of_takes (distinct : (f.signature.params.map (·.2)).Nodup) {entry : String × Value}
    (takes : f.Takes entry) (fixed : List (Option Value)) (M : Machine) :
    ∃ fixed' M', f.fix fixed entry.1 entry.2 M = .ok fixed' M' := by
  obtain ⟨ty, mem, i, w, converted⟩ := takes
  obtain ⟨index, found⟩ := List.mem_iff_getElem?.mp mem
  obtain ⟨w', converted', -⟩ := Value.cast_twin converted M.memory.objects
  rw [fix_eq distinct found, bind_of_ok (cast_of_ok converted')]
  exact ⟨_, _, rfl⟩

/-- Fixing several parameters, when it succeeds. -/
theorem of_fixAll_eq_ok (distinct : (f.signature.params.map (·.2)).Nodup)
    (fixes : f.Fixes given fixed) {fixed' : List (Option Value)}
    (h : more.foldlM (fun fixed entry => f.fix fixed entry.1 entry.2) fixed M = .ok fixed' M') :
    (∀ entry ∈ more, f.Takes entry) ∧ f.Fixes (given ++ more) fixed' ∧
      M'.memory.functions = M.memory.functions := by
  induction more generalizing given fixed M with
  | nil =>
    cases h
    exact ⟨fun _ mem => (by cases mem), by rwa [List.append_nil], rfl⟩
  | cons entry more ih =>
    rw [List.foldlM_cons] at h
    cases he : f.fix fixed entry.1 entry.2 M with
    | error e M₁ =>
      rw [bind_of_error he] at h
      cases h
    | ok fixed₁ M₁ =>
      rw [bind_of_ok he] at h
      obtain ⟨takes, fixes₁, same₁⟩ := of_fix_eq_ok fixes distinct he
      obtain ⟨takesAll, fixes', same⟩ := ih fixes₁ h
      refine ⟨List.forall_mem_cons.mpr ⟨takes, takesAll⟩, ?_, same.trans same₁⟩
      rwa [List.append_assoc] at fixes'

/-- What can be fixed is fixed, all of it. -/
theorem fixAll_of_takes (distinct : (f.signature.params.map (·.2)).Nodup)
    (takes : ∀ entry ∈ more, f.Takes entry) (fixed : List (Option Value)) (M : Machine) :
    ∃ fixed' M', more.foldlM (fun fixed entry => f.fix fixed entry.1 entry.2) fixed M =
      .ok fixed' M' := by
  induction more generalizing fixed M with
  | nil => exact ⟨fixed, M, rfl⟩
  | cons entry more ih =>
    rw [List.forall_mem_cons] at takes
    obtain ⟨fixed₁, M₁, he⟩ := fix_of_takes distinct takes.1 fixed M
    rw [List.foldlM_cons, bind_of_ok he]
    exact ih takes.2 fixed₁ M₁

end Fixing

namespace Eval

variable {id : FunctionId} {f : FunctionObject} {given : List (String × Value)} {M M' : Machine}

/-- **What currying makes, when it succeeds.** -/
theorem of_curry_eq_ok (found : M.memory.functions[id]? = some f)
    (distinct : (f.signature.params.map (·.2)).Nodup) {v : Value}
    (h : curry id given M = .ok v M') :
    (∀ entry ∈ given, f.Takes entry) ∧ ∃ fixed, f.Fixes given fixed ∧
      v = .function M.memory.functions.size (f.curried id fixed).signature ∧
      M'.memory.functions = M.memory.functions.push (f.curried id fixed) := by
  have known : M.memory.function id = f := by
    rw [Memory.function, Array.getD_eq_getD_getElem?, found]
    rfl
  have start : memory M = .ok M.memory M := rfl
  rw [curry, bind_of_ok start, known] at h
  cases hf : given.foldlM (fun fixed entry => f.fix fixed entry.1 entry.2)
      (f.signature.params.map fun _ => none) M with
  | error e M₁ =>
    rw [bind_of_error hf] at h
    cases h
  | ok fixed M₁ =>
    rw [bind_of_ok hf] at h
    obtain ⟨takes, fixes, same⟩ := of_fixAll_eq_ok distinct (fixes_nil f) hf
    cases h
    refine ⟨takes, fixed, fixes, ?_, ?_⟩
    · rw [same]
    · show M₁.memory.functions.push _ = _
      rw [same]

/-- **Currying succeeds with what can be fixed.** -/
theorem curry_of_takes (found : M.memory.functions[id]? = some f)
    (distinct : (f.signature.params.map (·.2)).Nodup) (takes : ∀ entry ∈ given, f.Takes entry) :
    ∃ v M', curry id given M = .ok v M' := by
  have known : M.memory.function id = f := by
    rw [Memory.function, Array.getD_eq_getD_getElem?, found]
    rfl
  have start : memory M = .ok M.memory M := rfl
  obtain ⟨fixed, M₁, hf⟩ := fixAll_of_takes distinct takes (f.signature.params.map fun _ => none) M
  rw [curry, bind_of_ok start, known, bind_of_ok hf]
  exact ⟨_, _, rfl⟩

end Eval

/-! ## What is left -/

namespace FunctionObject

variable {f : FunctionObject} {given more : List (String × Value)}
  {fixed fixed' : List (Option Value)}

/-- A parameter is fixed if a value is given for it. -/
theorem Fixes.isNone (fixes : f.Fixes given fixed) :
    fixed.map (·.isNone) = f.signature.params.map fun param =>
      (lastGiven given param.2).isNone := by
  unfold Fixes at fixes
  generalize f.signature.params = params at fixes ⊢
  induction fixes with
  | nil => rfl
  | cons holder _ ih =>
    rw [List.map_cons, List.map_cons, ih]
    cases holder with
    | free h => simp [h]
    | fixed i h converted => simp [h]

theorem Fixes.length (fixes : f.Fixes given fixed) : fixed.length = f.signature.params.length :=
  (List.Forall₂.length_eq fixes).symm

/-- What is left are the entries for the parameters that no value is given for. -/
theorem Fixes.free_eq (fixes : f.Fixes given fixed) {α : Type} (all : List α) :
    free fixed all = ((f.signature.params.zip all).filter
      fun entry => (lastGiven given entry.1.2).isNone).map (·.2) := by
  unfold Fixes at fixes
  generalize f.signature.params = params at fixes ⊢
  induction fixes generalizing all with
  | nil => rfl
  | cons holder _ ih =>
    cases all with
    | nil => rfl
    | cons a all =>
      rw [List.zip_cons_cons, List.filter_cons]
      cases holder with
      | free h => simp [h, ih]
      | fixed i h converted => simp [h, ih]

theorem Fixes.free_params (fixes : f.Fixes given fixed) :
    free fixed f.signature.params =
      f.signature.params.filter fun param => (lastGiven given param.2).isNone := by
  rw [fixes.free_eq]
  induction f.signature.params with
  | nil => rfl
  | cons param rest ih => 
    rw [List.zip_cons_cons, List.filter_cons, List.filter_cons]
    split <;> simp_all

theorem Fixes.curries (fixes : f.Fixes given fixed) (id : FunctionId) :
    f.Curries given (f.curried id fixed) fixed :=
  ⟨fixes, fixes.free_params, rfl, fixes.free_eq _⟩

/-- What conversions have made differs by identity at most, and not at all if they have created
nothing. -/
theorem Fixes.twin (fixes : f.Fixes given fixed) (fixes' : f.Fixes given fixed') :
    List.Forall₂ (Option.Rel Value.Twin) fixed fixed' ∧ (f.Plain given → fixed = fixed') := by
  unfold Fixes at fixes fixes'
  unfold Plain
  generalize f.signature.params = params at fixes fixes' ⊢
  induction fixes generalizing fixed' with
  | nil =>
    cases fixes'
    exact ⟨.nil, fun _ => rfl⟩
  | cons holder _ ih =>
    cases fixes' with
    | cons holder' fixes' =>
      obtain ⟨twins, same⟩ := ih fixes'
      cases holder with
      | free h =>
        cases holder' with
        | free =>
          refine ⟨.cons .none twins, fun plain => ?_⟩
          rw [List.forall_mem_cons] at plain
          rw [same plain.2]
        | fixed i' h' => cases h.symm.trans h'
      | fixed i h converted =>
        cases holder' with
        | free h' => cases h.symm.trans h'
        | fixed i' h' converted' =>
          cases h.symm.trans h'
          obtain ⟨w, converted'', twin⟩ := Value.cast_twin converted i'
          cases converted'.symm.trans converted''
          refine ⟨.cons (.some twin) twins, fun plain => ?_⟩
          rw [List.forall_mem_cons] at plain
          cases converted.symm.trans ((plain.1 _ h i i').trans converted')
          rw [same plain.2]

/-- Fixing parameters that are left fixes them together with those that were fixed before. -/
theorem Fixes.merge {g : FunctionObject} (fixes : f.Fixes given fixed)
    (left : g.signature.params = free fixed f.signature.params) {others : List (Option Value)}
    (fixesMore : g.Fixes more others) (takes : ∀ entry ∈ more, g.Takes entry) :
    f.Fixes (given ++ more) (merge fixed others) := by
  -- No value is given for a parameter that is fixed already.
  have fresh : ∀ param ∈ f.signature.params, (lastGiven given param.2).isSome →
      lastGiven more param.2 = none := by
    intro param _ known
    cases again : lastGiven more param.2 with
    | none => rfl
    | some v =>
      obtain ⟨ty, mem, -⟩ := takes _ (mem_of_lastGiven again)
      rw [left, fixes.free_params, List.mem_filter] at mem
      rw [Option.isNone_iff_eq_none.mp mem.2] at known
      cases known
  unfold Fixes at fixes fixesMore ⊢
  rw [left] at fixesMore
  clear left takes
  generalize f.signature.params = params at fixes fixesMore fresh ⊢
  induction fixes generalizing others with
  | nil => exact .nil
  | @cons param entry params fixed holder _ ih =>
    rw [List.forall_mem_cons] at fresh
    cases holder with
    | free h =>
      cases fixesMore with
      | cons holder' fixesMore =>
        refine .cons ?_ (ih fixesMore fresh.2)
        cases holder' with
        | free h' => exact .free (by rw [lastGiven_append, h', h]; rfl)
        | fixed i h' converted => exact .fixed i (by rw [lastGiven_append, h']; rfl) converted
    | fixed i h converted =>
      refine .cons (.fixed i ?_ converted) (ih fixesMore fresh.2)
      rw [lastGiven_append, fresh.1 (by rw [h]; rfl), h]
      rfl

end FunctionObject

/-! ## Calls -/

/-- The function was made by a literal, or by currying a function that was. -/
inductive Memory.Made (m : Memory) : FunctionId → FunctionObject → Prop
  | literal {id : FunctionId} {f : FunctionObject} {body : Code.Op} {template : Code.Template}
      {closure : ClosureId} {region : Span} (found : m.functions[id]? = some f)
      (body : f.body = .literal body template closure region)
      (defaults : f.defaults.length = f.signature.arity) : Made m id f
  | curried {id target : FunctionId} {f : FunctionObject} {fixed : List (Option Value)}
      (found : m.functions[id]? = some (f.curried target fixed))
      (places : fixed.length = f.signature.arity) (made : Made m target f) :
      Made m id (f.curried target fixed)

namespace Memory

variable {m m' : Memory} {id : FunctionId} {f : FunctionObject}

theorem Made.found (made : m.Made id f) : m.functions[id]? = some f := by
  cases made <;> assumption

theorem Made.defaults (made : m.Made id f) : f.defaults.length = f.signature.arity := by
  induction made with
  | literal _ _ defaults => exact defaults
  | curried _ places _ ih =>
    show (free _ _).length = (free _ _).length
    rw [length_free (places.trans ih.symm), length_free places]

/-- Functions stay as they were made. -/
theorem Made.mono (made : m.Made id f)
    (same : ∀ (id : FunctionId) f, m.functions[id]? = some f → m'.functions[id]? = some f) :
    m'.Made id f := by
  induction made with
  | literal found body defaults => exact .literal (same _ _ found) body defaults
  | curried found places _ ih => exact .curried (same _ _ found) places ih

theorem function_of_found (found : m.functions[id]? = some f) : m.function id = f := by
  rw [Memory.function, Array.getD_eq_getD_getElem?, found]
  rfl

end Memory

namespace FunctionObject

/-- What a call is made with: parameters without argument get their default. -/
def padded (f : FunctionObject) (args : List Value) : List Value :=
  args ++ f.defaults.drop args.length

theorem length_padded {f : FunctionObject} (defaults : f.defaults.length = f.signature.arity)
    {args : List Value} (le : args.length ≤ f.signature.arity) :
    (f.padded args).length = f.signature.arity := by
  rw [padded, List.length_append, List.length_drop, defaults, Nat.add_sub_cancel' le]

theorem padded_full {f : FunctionObject} (defaults : f.defaults.length = f.signature.arity)
    {args : List Value} (full : args.length = f.signature.arity) : f.padded args = args := by
  rw [padded, full, ← defaults, List.drop_length, List.append_nil]

end FunctionObject

/-! ### Buffers -/

namespace Eval

/-- A step that takes an empty buffer from a clear pool is the step with no buffer taken, as long as
memory only grows meanwhile. -/
theorem withBuffer_of_clear {M : Machine} (clear : M.memory.scratch.Clear)
    {x : List Value → Eval Value} (grows : Enlarges (x [])) : withBuffer x M = x [] M := by
  have empty : M.memory.scratch.buffer 0 = [] := clear 0
  have taken : M.withScratch M.memory.scratch.rest = M := by rw [Pool.rest_of_clear clear]; rfl
  have back : ∀ {M' : Machine}, M.memory.Grows M'.memory →
      M'.withScratch (M'.memory.scratch.give []) = M' :=
    fun {M'} grown => by rw [Pool.give_of_clear (grown.clear clear)]; rfl
  cases run : x [] M with
  | ok v M' =>
    rw [withBuffer_of_ok (by rw [empty, taken]; exact run), back (grows.of_ok run)]
  | error stop M' =>
    rw [withBuffer_of_error (by rw [empty, taken]; exact run), back (grows.of_error run)]

/-- **With empty buffers all adapters hand on the same arguments**, and leave the pool as it was. -/
theorem forward_eq {M : Machine} (clear : M.memory.scratch.Clear) {fixed : List (Option Value)}
    {args : List Value} (count : args.length = freeCount fixed) {target : List Value → Eval Value}
    (grows : ∀ args, Enlarges (target args)) :
    forward fixed args target M = target (arrange fixed args) M := by
  rw [← Adapter.arguments_select count, forward]
  cases Adapter.select fixed with
  | generic => exact withBuffer_of_clear clear (grows _)
  | _ => rfl

end Eval

/-- As long as all buffers are empty, a call of one function is a call of another one with `fixed`
at its places, as many levels below. -/
def Machine.Forwards (M : Machine) (levels : Nat) (id : FunctionId) (f : FunctionObject)
    (target : FunctionId) (fixed : List (Option Value)) : Prop :=
  M.memory.scratch.Clear → ∀ watch : Watch, watch.Enlarges →
    ∀ (n : Nat) (args : List Value), args.length ≤ f.signature.arity →
      Supply.watched watch (n + levels) (.call id args) M =
        Supply.watched watch n (.call target (arrange fixed (f.padded args))) M

section Calls

variable {id target : FunctionId} {f g : FunctionObject} {fixed : List (Option Value)} {M : Machine}

/-- **A curried function passes its arguments on to its target.** -/
theorem Machine.forwards_curried (found : M.memory.functions[id]? = some (f.curried target fixed))
    (places : fixed.length = f.signature.arity)
    (defaults : f.defaults.length = f.signature.arity) :
    M.Forwards 1 id (f.curried target fixed) target fixed := by
  intro clear watch keeps n args le
  show Eval.call (Supply.watched watch n) id args M = _
  have start : Eval.memory M = .ok M.memory M := rfl
  have full :
      (f.curried target fixed).defaults.length = (f.curried target fixed).signature.arity := by
    show (free _ _).length = (free _ _).length
    rw [length_free (places.trans defaults.symm), length_free places]
  have count : ((f.curried target fixed).padded args).length = freeCount fixed :=
    (length_padded full le).trans (length_free places)
  rw [Eval.call, bind_of_ok start, Memory.function_of_found found]
  simp only
  rw [if_neg (Nat.not_lt_of_le le)]
  exact forward_eq clear count fun args => (Supply.watched_enlarges keeps n).meet
    (.call target args)

/-- Calls through a curried function of a curried function. -/
theorem Machine.Forwards.trans {middle : FunctionId} {others : List (Option Value)}
    {levels more : Nat} (outer : M.Forwards levels id f middle fixed)
    (inner : M.Forwards more middle g target others)
    (defaults : g.defaults.length = g.signature.arity) (full : fixed.length = g.signature.arity)
    (places : freeCount others = g.signature.arity) :
    M.Forwards (more + levels) id f target (merge others fixed) := by
  intro clear watch keeps n args le
  have count : (arrange fixed (f.padded args)).length = g.signature.arity :=
    (length_arrange _ _).trans full
  have whole := padded_full defaults count
  rw [← Nat.add_assoc, outer clear watch keeps _ args le,
    inner clear watch keeps n _ (Nat.le_of_eq count), whole,
      arrange_arrange (full.trans places.symm)]

/-- Arguments that the conversions to the types of the parameters do not tell apart. -/
inductive ArgumentsAlike : List (Ty × String) → List Value → List Value → Prop
  | nil : ArgumentsAlike [] [] []
  | cons {param : Ty × String} {params : List (Ty × String)} {v w : Value} {vs ws : List Value}
      (first : v.CastAlike param.1 w) (rest : ArgumentsAlike params vs ws) :
      ArgumentsAlike (param :: params) (v :: vs) (w :: ws)

variable {params : List (Ty × String)} {vs ws : List Value}

theorem ArgumentsAlike.length (alike : ArgumentsAlike params vs ws) :
    vs.length = params.length ∧ ws.length = params.length := by
  induction alike with
  | nil => exact ⟨rfl, rfl⟩
  | cons _ _ ih => exact ⟨congrArg (· + 1) ih.1, congrArg (· + 1) ih.2⟩

/-- They are bound alike. -/
theorem Eval.bindParams_congr (supply : Supply) (space : SpaceId)
    (alike : ArgumentsAlike params vs ws) :
    bindParams supply space params vs = bindParams supply space params ws := by
  unfold bindParams
  generalize (0 : Nat) = slot
  induction alike generalizing slot with
  | nil => rfl
  | cons first _ ih =>
    simp only [List.zip_cons_cons, List.zipIdx_cons, List.forM_eq_forM, List.forM_cons,
      Eval.cast_congr first] at ih ⊢
    rw [ih]

/-- They are passed on alike. -/
theorem ArgumentsAlike.arrange (places : fixed.length = params.length)
    (alike : ArgumentsAlike (free fixed params) vs ws) :
    ArgumentsAlike params (arrange fixed vs) (arrange fixed ws) := by
  induction params generalizing fixed vs ws with
  | nil =>
    cases fixed with
    | nil => exact .nil
    | cons => cases places
  | cons param params ih =>
    cases fixed with
    | nil => cases places
    | cons entry fixed =>
      have rest : fixed.length = params.length := Nat.succ.inj places
      cases entry with
      | some v => exact .cons (fun _ => rfl) (ih rest alike)
      | none =>
        cases alike with
        | cons first alike => exact .cons first (ih rest alike)

/-- **Calls do not tell apart what conversions do not tell apart.** -/
theorem Memory.Made.call_congr (made : M.memory.Made id f) (clear : M.memory.scratch.Clear)
    (alike : ArgumentsAlike f.signature.params vs ws) {watch : Watch}
    (keeps : watch.Enlarges) (n : Nat) :
    Supply.watched watch n (.call id vs) M = Supply.watched watch n (.call id ws) M := by
  obtain ⟨left, right⟩ := alike.length
  have padLeft := padded_full made.defaults left
  have padRight := padded_full made.defaults right
  induction made generalizing vs ws n with
  | @literal id f body template closure region found hb defaults =>
    cases n with
    | zero => rfl
    | succ n =>
      show Eval.call _ id vs M = Eval.call _ id ws M
      have start : Eval.memory M = .ok M.memory M := rfl
      rw [padded] at padLeft padRight
      rw [Eval.call, Eval.call, bind_of_ok start, bind_of_ok start,
        Memory.function_of_found found, hb]
      simp only [padLeft, padRight, Eval.bindParams_congr _ _ alike]
      rw [left, right]
  | curried found places made ih =>
    cases n with
    | zero => rfl
    | succ n =>
      have forwards := Machine.forwards_curried found places made.defaults
      have alike' := alike.arrange places
      obtain ⟨left', right'⟩ := alike'.length
      rw [forwards clear watch keeps n vs (Nat.le_of_eq left),
        forwards clear watch keeps n ws (Nat.le_of_eq right), padLeft, padRight]
      exact ih alike' n left' right' (padded_full made.defaults left')
        (padded_full made.defaults right')

/-- Values as they were given are converted to what is fixed. -/
theorem FunctionObject.Fixes.alike {given : List (String × Value)} (fixes : f.Fixes given fixed)
    (plain : f.Plain given) {args : List Value} :
    ArgumentsAlike f.signature.params (arrange fixed args) (arrange (f.asGiven given) args) := by
  unfold Fixes at fixes
  unfold Plain at plain
  unfold asGiven
  generalize f.signature.params = params at fixes plain ⊢
  induction fixes generalizing args with
  | nil => exact .nil
  | cons holder _ ih =>
    rw [List.forall_mem_cons] at plain
    rw [List.map_cons]
    cases holder with
    | free h =>
      rw [h]
      cases args with
      | nil => exact .cons (fun _ => rfl) (ih plain.2)
      | cons arg args => exact .cons (fun _ => rfl) (ih plain.2)
    | fixed i h converted =>
      rw [h]
      have same := (plain.1 _ h).castAlike converted
      exact .cons (fun j => (same j).symm) (ih plain.2)

end Calls

/-! ## Currying agrees with direct calls -/

namespace Eval

/-- **Currying agrees with direct calls.** What currying `f` makes takes the parameters of `f` that
no value is given for, in their order, with their types and defaults. A call of it is a call of `f`
with the last value given for each name, converted when the function was made, at the place of its
parameter and the arguments, filled up with defaults, at the others: with the same outcome, and
leaving the same machine behind. If the conversions create no container, the values may as well be
as they were given. What currying makes can be curried again, and that is what currying once with
all values makes: it takes the same parameters with the same defaults, and a call hands `f` the same
arguments, but for the identity of containers that conversions have created. All this takes the
buffers of adapters to be empty when the call begins. They are so when nothing has been evaluated
yet, and if they are so when a call or any other demand begins, then they are so when it is over,
however it ends. -/
theorem curry_agrees {M M' : Machine} {id : FunctionId} {f : FunctionObject}
    {given : List (String × Value)} {v : Value} (made : M.memory.Made id f)
    (distinct : (f.signature.params.map (·.2)).Nodup) (curried : curry id given M = .ok v M') :
    ∃ g fg fixed, v = .function g fg.signature ∧ M'.memory.Made g fg ∧ f.Curries given fg fixed ∧
      (∀ N : Machine, N.memory.functions[g]? = some fg → N.Forwards 1 g fg id fixed ∧
        (N.memory.Made id f → f.Plain given → N.Forwards 1 g fg id (f.asGiven given))) ∧
      (∀ (N N' K : Machine) (more : List (String × Value)) (w : Value),
        N.memory.functions[g]? = some fg → curry g more N = .ok w N' →
        K.memory.functions[id]? = some f →
        ∃ h fh fixed₂ once f₁ fixed₁ K', w = .function h fh.signature ∧
          N'.memory.functions[h]? = some fh ∧
          curry id (given ++ more) K = .ok (.function once f₁.signature) K' ∧
          K'.memory.functions[once]? = some f₁ ∧
          f.Curries (given ++ more) fh fixed₂ ∧ f.Curries (given ++ more) f₁ fixed₁ ∧
          fh.signature = f₁.signature ∧ fh.defaults = f₁.defaults ∧
          List.Forall₂ (Option.Rel Value.Twin) fixed₂ fixed₁ ∧
          (∀ L : Machine, L.memory.functions[g]? = some fg → L.memory.functions[h]? = some fh →
            L.Forwards 2 h fh id fixed₂) ∧
          (∀ L : Machine, L.memory.functions[once]? = some f₁ → L.Forwards 1 once f₁ id fixed₁) ∧
          (f.Plain (given ++ more) → ∀ L : Machine, L.memory.functions[g]? = some fg →
            L.memory.functions[h]? = some fh → L.memory.functions[once]? = some f₁ →
            L.memory.scratch.Clear → ∀ watch : Watch, watch.Enlarges →
              ∀ (n : Nat) (args : List Value), args.length ≤ fh.signature.arity →
                Supply.watched watch (n + 2) (.call h args) L =
                  Supply.watched watch (n + 1) (.call once args) L)) ∧
      Memory.initial.scratch.Clear ∧
      ∀ watch : Watch, watch.Enlarges → ∀ (n : Nat) (demand : Demand) (L : Machine),
        L.memory.scratch.Clear →
          (L.run (Supply.watched watch n demand)).2.memory.scratch.Clear := by
  obtain ⟨takes, fixed, fixes, rfl, pushed⟩ := of_curry_eq_ok made.found distinct curried
  have made' : M'.memory.Made M.memory.functions.size (f.curried id fixed) := by
    refine .curried (by rw [pushed, Array.getElem?_push_size]) fixes.length
      (made.mono fun id f found => ?_)
    rw [pushed, Array.getElem?_push, if_neg (Nat.ne_of_lt (Array.getElem?_eq_some_iff.mp found).1),
      found]
  generalize M.memory.functions.size = g at made' ⊢
  refine ⟨g, f.curried id fixed, fixed, rfl, made', fixes.curries id, fun N found => ?_, ?_,
    Pool.clear_unused, fun watch keeps n demand L clear =>
      ((Supply.watched_enlarges keeps n).meet demand).run L |>.clear clear⟩
  · have forwards := Machine.forwards_curried found fixes.length made.defaults
    refine ⟨forwards, fun there plain clear watch keeps n args le => ?_⟩
    rw [forwards clear watch keeps n args le]
    exact there.call_congr clear (fixes.alike plain) keeps n
  intro N N' K more w found again there
  -- What is left has distinct names as well, and whatever can be fixed in it can be fixed in `f`.
  have left : ((f.curried id fixed).signature.params.map (·.2)).Nodup := by
    show ((free fixed f.signature.params).map (·.2)).Nodup
    rw [fixes.free_params]
    exact (List.filter_sublist.map _).nodup distinct
  obtain ⟨takesMore, others, fixesMore, rfl, pushed'⟩ := of_curry_eq_ok found left again
  have takesAll : ∀ entry ∈ given ++ more, f.Takes entry := by
    refine fun entry mem => (List.mem_append.mp mem).elim (takes entry) fun mem => ?_
    obtain ⟨ty, known, converts⟩ := takesMore entry mem
    rw [show (f.curried id fixed).signature.params = _ from fixes.free_params] at known
    exact ⟨ty, List.mem_of_mem_filter known, converts⟩
  obtain ⟨w, K', onceMade⟩ := curry_of_takes there distinct takesAll
  obtain ⟨-, fixed₁, fixes₁, rfl, pushed₁⟩ := of_curry_eq_ok there distinct onceMade
  -- The places of both lists.
  have count : others.length = freeCount fixed :=
    fixesMore.length.trans (length_free fixes.length)
  have fixes₂ := fixes.merge rfl fixesMore takesMore
  have same := fixes₂.isNone.trans fixes₁.isNone.symm
  have params : free others (free fixed f.signature.params) = free fixed₁ f.signature.params := by
    rw [← free_merge count, free_congr same]
  have defaults : free others (free fixed f.defaults) = free fixed₁ f.defaults := by
    rw [← free_merge count, free_congr same]
  have signature : ((f.curried id fixed).curried g others).signature =
      (f.curried id fixed₁).signature := congrArg (Signature.mk · f.signature.returns) params
  have curries₁ := fixes₁.curries id
  have twins := fixes₂.twin fixes₁
  have twice : ∀ L : Machine, L.memory.functions[g]? = some (f.curried id fixed) →
      L.memory.functions[N.memory.functions.size]? = some ((f.curried id fixed).curried g others) →
      L.Forwards 2 N.memory.functions.size ((f.curried id fixed).curried g others) id
        (merge fixed others) := by
    intro L hg hh
    have outer := Machine.forwards_curried hh fixesMore.length made'.defaults
    have inner := Machine.forwards_curried hg fixes.length made.defaults
    exact outer.trans inner made'.defaults fixesMore.length (length_free fixes.length).symm
  have once : ∀ L : Machine, L.memory.functions[K.memory.functions.size]? =
      some (f.curried id fixed₁) → L.Forwards 1 K.memory.functions.size (f.curried id fixed₁) id
        fixed₁ := fun L found =>
    Machine.forwards_curried found fixes₁.length made.defaults
  refine ⟨_, _, merge fixed others, _, _, fixed₁, K',
    rfl, by rw [pushed', Array.getElem?_push_size],
    onceMade, by rw [pushed₁, Array.getElem?_push_size],
      ⟨fixes₂, (congrArg (·.params) signature).trans curries₁.params, rfl,
        defaults.trans curries₁.defaults⟩,
    curries₁, signature, defaults, twins.1, twice, once,
    fun plain L hg hh hk clear watch keeps n args le => ?_⟩
  have le₁ : args.length ≤ (f.curried id fixed₁).signature.arity := signature ▸ le
  have pads : ((f.curried id fixed).curried g others).padded args =
      (f.curried id fixed₁).padded args :=
    congrArg (fun all => args ++ all.drop args.length) defaults
  rw [twice L hg hh clear watch keeps n args le, once L hk clear watch keeps n args le₁,
    twins.2 plain, pads]

end Eval

/-- Gives its dictionary when it is called with one argument, and else compares it. In the notation
of the language:

    f = (dict a, b) -> if b is void then a else a == b -/
def comparer : FunctionObject :=
  let param (slot : Nat) : Code.Op := ⟨.null, .reference ⟨"", .own slot, .any, none⟩ default⟩
  let holding (symbol : Nat) (name : String) (ty : Ty) : Code.Slot :=
    ⟨symbol, name, ty, .null, none, none⟩
  let body : Code.Op := ⟨.null, .ifElse ⟨.null, .isOf (param 1) .void⟩ (param 0)
    ⟨.null, .binary .equal .generic (param 0) (param 1)⟩⟩
  ⟨⟨[(.dict, "a"), (.any, "b")], .any⟩, [.nil, .nil],
    .literal body ⟨0, [holding 0 "a" .dict, holding 1 "b" .any]⟩ 0 .null⟩

/-- A machine that knows the function, and a list. -/
def comparing : Machine :=
  ⟨{ Memory.initial with closures := #[[]], functions := #[comparer], objects := 1 }, .detached⟩

/-- The theorem at this function, with a list that becomes a dictionary. -/
theorem curry_agrees_comparer :
    comparing.memory.Made 0 comparer ∧ (comparer.signature.params.map (·.2)).Nodup ∧
      ∃ g M' fg fixed, curry 0 [("a", .list 0 [])] comparing = .ok (.function g fg.signature) M' ∧
        M'.memory.Made g fg ∧ comparer.Curries [("a", .list 0 [])] fg fixed ∧
        ∀ N : Machine, N.memory.functions[g]? = some fg → N.Forwards 1 g fg 0 fixed := by
  have made : comparing.memory.Made 0 comparer := .literal rfl rfl rfl
  have distinct : (comparer.signature.params.map (·.2)).Nodup := by decide
  have curried : curry 0 [("a", .list 0 [])] comparing = .ok (.function 1 ⟨[(.any, "b")], .any⟩)
      (comparing.run (curry 0 [("a", .list 0 [])])).2 := rfl
  obtain ⟨g, fg, fixed, same, made', curries, forwards, -⟩ := curry_agrees made distinct curried
  exact ⟨made, distinct, g, _, fg, fixed, same ▸ curried, made', curries,
    fun N found => (forwards N found).1⟩

/-- **The function that currying makes keeps what conversion has created.** Here it is a dictionary
with NaN in it, which equals itself only. It comes back from the first call, and is the same one in
the second. A call of the target with the list converts the list anew. -/
theorem curried_container_shared :
    let pairs : Value := .list 0 [.string "k", .double Double.nan]
    let makes := comparing.run (curry 0 [("a", pairs)])
    let gives := makes.2.run (Supply.ofFuel 9 (.call 1 []))
    ∃ g x, makes.1 = .ok (.function 1 g) ∧ gives.1 = .ok x ∧
      (gives.2.run (Supply.ofFuel 9 (.call 1 [x]))).1 = .ok (.boolean true) ∧
      (gives.2.run (Supply.ofFuel 9 (.call 0 [pairs, x]))).1 = .ok (.boolean false) := by
  refine ⟨⟨[(.any, "b")], .any⟩, .dict 1 [("k", .double Double.nan)], rfl, rfl, ?_, ?_⟩
  · rfl
  · rfl

end CellScript
