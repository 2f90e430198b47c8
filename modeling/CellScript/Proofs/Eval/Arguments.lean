import CellScript.Proofs.Eval.Curried
import Mathlib.Data.List.Induction

/-!
# Binding arguments

The arguments of a call are bound one after another. Spread out, they are a sequence of values by
position and values by name, in which it also shows where names begin. What is bound is read off
that sequence: each parameter has the last value that is meant for it, and else its default.

* `CallArgument.pieces` — what an argument spreads out to
* `Signature.Takes` — the sequences that fit a signature
* `Signature.Given` — the last value that is meant for a parameter
* `Arguments.Bound.step`, `Arguments.Bound.run` — what binding one piece, and then all of them, does
* `FunctionObject.bind_exact` — what binding gives, and how it fails
-/

namespace CellScript

/-! ## Spreading arguments out -/

namespace CallArgument

/-- A part of the arguments of a call, once everything is spread out. -/
inductive Piece where
  | positional (v : Value)
  | named (name : String) (v : Value)
  /-- A dictionary begins here, perhaps an empty one. -/
  | names
  /-- A value that cannot be spread out. -/
  | stuck (v : Value)

/-- Lists spread out by position and dictionaries by name, in key order; nil spreads out to
nothing. -/
def pieces : CallArgument → List Piece
  | positional v => [.positional v]
  | named name v => [.named name v]
  | splat .nil => []
  | splat (.list _ items) => items.map .positional
  | splat (.dict _ entries) => .names :: entries.map fun entry => .named entry.1 entry.2
  | splat v => [.stuck v]

namespace Piece

/-- Nothing by position may follow. -/
def endsPositions : Piece → Bool
  | named _ _ | names => true
  | positional _ | stuck _ => false

def isPositional : Piece → Bool
  | positional _ => true
  | _ => false

/-- The code of the error with which binding ends at this piece. -/
def code : Piece → ErrorCode
  | stuck _ => .castError
  | _ => .unexpectedArgument

/-- How many values by position there are. -/
def positions (ps : List Piece) : Nat := ps.countP isPositional

theorem positions_concat (ps : List Piece) (p : Piece) :
    positions (ps ++ [p]) = positions ps + if p.isPositional then 1 else 0 := by
  rw [positions, List.countP_append, List.countP_singleton]
  rfl

end Piece

end CallArgument

namespace Signature

open CallArgument

variable (s : Signature)

/-- The sequence fits the signature. -/
structure Takes (ps : List Piece) : Prop where
  /-- Whatever had to be spread out could be. -/
  spreads : ∀ v, .stuck v ∉ ps
  /-- No value by position comes after a name or a dictionary. -/
  ordered : ∀ before p after, ps = before ++ p :: after → p.endsPositions = true →
    ∀ v, .positional v ∉ after
  /-- There are no more values by position than parameters. -/
  fits : Piece.positions ps ≤ s.arity
  /-- Names are those of parameters. -/
  known : ∀ name v, .named name v ∈ ps → name ∈ s.params.map (·.2)

/-- The piece is a value for a parameter. Values by position go to the parameters in order. -/
def Reaches (before : List Piece) (p : Piece) (i : Nat) (v : Value) : Prop :=
  (p = .positional v ∧ i = Piece.positions before) ∨
    ∃ name ty, p = .named name v ∧ s.params[i]? = some (ty, name)

/-- The last value that is meant for a parameter. -/
def Given (ps : List Piece) (i : Nat) (v : Value) : Prop :=
  ∃ before p after, ps = before ++ p :: after ∧ s.Reaches before p i v ∧
    ∀ middle q rest w, after = middle ++ q :: rest → ¬s.Reaches (before ++ p :: middle) q i w

variable {s} {ps qs : List Piece} {p : Piece} {i : Nat} {v w : Value}

/-- A place in a sequence with one more piece is the end, or a place before it. -/
theorem concat_eq_append_cons {before after : List Piece} {q : Piece} :
    ps ++ [p] = before ++ q :: after ↔
      (before = ps ∧ q = p ∧ after = []) ∨ ∃ rest, after = rest ++ [p] ∧
        ps = before ++ q :: rest := by
  constructor
  · intro same
    rcases List.eq_nil_or_concat' after with rfl | ⟨rest, final, rfl⟩
    · obtain ⟨rfl, last⟩ := List.append_inj' same rfl
      exact .inl ⟨rfl, (List.singleton_inj.mp last).symm, rfl⟩
    · rw [← List.cons_append, ← List.append_assoc] at same
      obtain ⟨rfl, last⟩ := List.append_inj' same rfl
      exact .inr ⟨rest, by rw [last], rfl⟩
  · rintro (⟨rfl, rfl, rfl⟩ | ⟨rest, rfl, rfl⟩)
    · rfl
    · rw [List.append_assoc, List.cons_append]

theorem not_nil_eq_append_cons {before after : List Piece} {q : Piece} :
    [] ≠ before ++ q :: after := by
  simp

theorem takes_nil : s.Takes [] where
  spreads _ h := by cases h
  ordered _ _ _ h := absurd h not_nil_eq_append_cons
  fits := Nat.zero_le _
  known _ _ h := by cases h

/-- What fits as a whole fits up to any point. -/
theorem Takes.left (h : s.Takes (ps ++ qs)) : s.Takes ps where
  spreads v mem := h.spreads v (List.mem_append_left _ mem)
  ordered before p after same ends v mem := by
    refine h.ordered before p (after ++ qs) ?_ ends v (List.mem_append_left _ mem)
    rw [same, List.append_assoc, List.cons_append]
  fits := by
    refine Nat.le_trans ?_ h.fits
    rw [Piece.positions, Piece.positions, List.countP_append]
    exact Nat.le_add_right _ _
  known name v mem := h.known name v (List.mem_append_left _ mem)

/-- One more piece. -/
theorem takes_concat : s.Takes (ps ++ [p]) ↔ s.Takes ps ∧ match p with
    | .positional _ => ps.any (·.endsPositions) = false ∧ Piece.positions ps < s.arity
    | .named name _ => name ∈ s.params.map (·.2)
    | .names => True
    | .stuck _ => False := by
  constructor
  · intro h
    refine ⟨h.left, ?_⟩
    cases p with
    | positional v =>
      refine ⟨?_, ?_⟩
      · rw [List.any_eq_false]
        intro q mem ends
        obtain ⟨before, after, rfl⟩ := List.append_of_mem mem
        refine h.ordered before q (after ++ [.positional v]) ?_ ends v ?_
        · rw [List.append_assoc, List.cons_append]
        · exact List.mem_append_right _ (List.mem_singleton.mpr rfl)
      · have fits := h.fits
        rw [Piece.positions_concat] at fits
        exact fits
    | named name v => exact h.known name v (List.mem_append_right _ (List.mem_singleton.mpr rfl))
    | names => trivial
    | stuck v => exact h.spreads v (List.mem_append_right _ (List.mem_singleton.mpr rfl))
  · rintro ⟨h, last⟩
    refine ⟨fun v mem => ?_, fun before q after same ends v mem => ?_, ?_, fun name v mem => ?_⟩
    · rcases List.mem_append.mp mem with mem | mem
      · exact h.spreads v mem
      · cases List.mem_singleton.mp mem
        exact last
    · -- The piece that ends the positions stands before the last one.
      rcases concat_eq_append_cons.mp same with ⟨-, -, rfl⟩ | ⟨rest, rfl, rfl⟩
      · cases mem
      · rcases List.mem_append.mp mem with mem | mem
        · exact h.ordered before q rest rfl ends v mem
        · cases List.mem_singleton.mp mem
          exact List.any_eq_false.mp last.1 q
            (List.mem_append_right _ (List.mem_cons_self ..)) ends
    · rw [Piece.positions_concat]
      cases p with
      | positional v => exact last.2
      | _ => exact h.fits
    · rcases List.mem_append.mp mem with mem | mem
      · exact h.known name v mem
      · cases List.mem_singleton.mp mem
        exact last

theorem not_given_nil : ¬s.Given [] i v := by
  rintro ⟨before, p, after, same, -⟩
  exact absurd same not_nil_eq_append_cons

/-- The last piece decides if it is a value for the parameter, and else those before it. -/
theorem given_concat : s.Given (ps ++ [p]) i v ↔
    s.Reaches ps p i v ∨ (∀ w, ¬s.Reaches ps p i w) ∧ s.Given ps i v := by
  constructor
  · rintro ⟨before, q, after, same, reaches, last⟩
    rcases concat_eq_append_cons.mp same with ⟨rfl, rfl, -⟩ | ⟨rest, rfl, rfl⟩
    · exact .inl reaches
    · refine .inr ⟨fun w => last rest p [] w rfl, before, q, rest, rfl, reaches, ?_⟩
      rintro middle r others w rfl
      refine last middle r (others ++ [p]) w ?_
      rw [List.append_assoc, List.cons_append]
  · rintro (reaches | ⟨not, before, q, after, rfl, reaches, last⟩)
    · exact ⟨ps, p, [], rfl, reaches, fun middle q rest w h => absurd h not_nil_eq_append_cons⟩
    · refine ⟨before, q, after ++ [p], by rw [List.append_assoc, List.cons_append], reaches,
        fun middle r rest w same => ?_⟩
      rcases concat_eq_append_cons.mp same with ⟨rfl, rfl, -⟩ | ⟨others, -, rfl⟩
      · exact not w
      · exact last middle r others w rfl

end Signature

/-! ## Binding -/

namespace Arguments

open CallArgument

variable (s : Signature)

/-- Binds one piece. -/
def bindPiece (args : Arguments) : Piece → Except Exception Arguments
  | .positional v => args.bindPosition s v
  | .named name v => args.bindName s name v
  | .names => .ok { args with named := true }
  | .stuck v => .error (.cannotSplat v "arguments")

/-- Binding an argument is binding what it spreads out to. -/
theorem bind_eq (args : Arguments) (arg : CallArgument) :
    args.bind s arg = arg.pieces.foldlM (bindPiece s) args := by
  cases arg with
  | positional v => exact (bind_pure (args.bindPosition s v)).symm
  | named name v => exact (bind_pure (args.bindName s name v)).symm
  | splat v =>
    cases v with
    | list id items =>
      rw [pieces, List.foldlM_map]
      rfl
    | dict id entries =>
      show _ = (entries.map fun entry => Piece.named entry.1 entry.2).foldlM (bindPiece s)
        { args with named := true }
      rw [List.foldlM_map]
      rfl
    | _ => rfl

theorem bindAll_eq (args : Arguments) (all : List CallArgument) :
    all.foldlM (fun args arg => args.bind s arg) args =
      (all.flatMap pieces).foldlM (bindPiece s) args := by
  induction all generalizing args with
  | nil => rfl
  | cons arg rest ih =>
    rw [List.foldlM_cons, List.flatMap_cons, List.foldlM_append, bind_eq]
    congr 1
    funext args
    exact ih args

variable {s} {ps : List Piece} {args : Arguments}

/-- What has been bound of a sequence. -/
structure Bound (s : Signature) (ps : List Piece) (args : Arguments) : Prop where
  places : args.bound.length = s.arity
  position : args.position = Piece.positions ps
  named : args.named = ps.any (·.endsPositions)
  value : ∀ i v, args.bound[i]? = some (some v) ↔ i < s.arity ∧ s.Given ps i v

theorem bound_empty (s : Signature) : Bound s [] (empty s) where
  places := List.length_map ..
  position := rfl
  named := rfl
  value i v := by
    constructor
    · intro h
      rw [empty, List.getElem?_map, Option.map_eq_some_iff] at h
      obtain ⟨_, _, h⟩ := h
      cases h
    · exact fun h => absurd h.2 Signature.not_given_nil

/-- The value of a parameter is set. -/
theorem Bound.set (bound : Bound s ps args) {p : Piece} {i : Nat} {v : Value} (lt : i < s.arity)
    (reaches : ∀ j w, s.Reaches ps p j w ↔ j = i ∧ w = v) (j : Nat) (w : Value) :
    (args.bound.set i (some v))[j]? = some (some w) ↔ j < s.arity ∧ s.Given (ps ++ [p]) j w := by
  rw [List.getElem?_set, Signature.given_concat, reaches]
  by_cases same : i = j
  · subst same
    rw [if_pos rfl, if_pos (by rw [bound.places]; exact lt), Option.some_inj, Option.some_inj]
    refine ⟨fun h => ⟨lt, .inl ⟨rfl, h.symm⟩⟩, ?_⟩
    rintro ⟨-, ⟨-, rfl⟩ | ⟨not, -⟩⟩
    · rfl
    · exact absurd ((reaches i v).mpr ⟨rfl, rfl⟩) (not v)
  · rw [if_neg same, bound.value]
    refine and_congr_right fun _ =>
      ⟨fun h => .inr ⟨fun u hu => same ((reaches j u).mp hu).1.symm, h⟩, ?_⟩
    rintro (⟨rfl, -⟩ | ⟨-, h⟩)
    · exact absurd rfl same
    · exact h

/-- The values of all parameters stay. -/
theorem Bound.keep (bound : Bound s ps args) {p : Piece} (not : ∀ i v, ¬s.Reaches ps p i v)
    (i : Nat) (v : Value) : args.bound[i]? = some (some v) ↔ i < s.arity ∧
      s.Given (ps ++ [p]) i v := by
  rw [bound.value, Signature.given_concat]
  refine and_congr_right fun _ => ⟨fun h => .inr ⟨not i, h⟩, ?_⟩
  rintro (h | ⟨-, h⟩)
  · exact absurd h (not i v)
  · exact h

/-- **Binding one more piece.** It succeeds if the piece fits, and fails with the error of the piece
if it does not. -/
theorem Bound.step (distinct : (s.params.map (·.2)).Nodup) (bound : Bound s ps args)
    (takes : s.Takes ps) (p : Piece) :
    (∃ args', args.bindPiece s p = .ok args' ∧ s.Takes (ps ++ [p]) ∧ Bound s (ps ++ [p]) args') ∨
      ∃ e, args.bindPiece s p = .error e ∧ ¬s.Takes (ps ++ [p]) ∧ e.code = p.code := by
  cases p with
  | positional v =>
    rw [bindPiece, bindPosition]
    split
    · next named =>
      refine .inr ⟨_, rfl, fun takes => ?_, rfl⟩
      rw [bound.named, (Signature.takes_concat.mp takes).2.1] at named
      cases named
    · next named =>
      rw [bound.places, bound.position]
      split
      · next lt =>
        refine .inl ⟨_, rfl, Signature.takes_concat.mpr ⟨takes, ?_, lt⟩, ?_⟩
        · rw [← bound.named]
          exact eq_false_of_ne_true named
        · refine ⟨by rw [List.length_set, bound.places], ?_, ?_, bound.set lt fun j w => ?_⟩
          · rw [Piece.positions_concat]
            rfl
          · rw [List.any_append, bound.named]
            exact (Bool.or_false _).symm
          · constructor
            · rintro (⟨same, rfl⟩ | ⟨name, ty, same, -⟩)
              · cases same
                exact ⟨rfl, rfl⟩
              · cases same
            · rintro ⟨rfl, rfl⟩
              exact .inl ⟨rfl, rfl⟩
      · next le => exact .inr ⟨_, rfl, fun takes => le (Signature.takes_concat.mp takes).2.2, rfl⟩
  | named name v =>
    rw [bindPiece, bindName]
    cases hi : s.indexOf? name with
    | none =>
      refine .inr ⟨_, rfl, fun takes => ?_, rfl⟩
      obtain ⟨param, mem, rfl⟩ := List.mem_map.mp (Signature.takes_concat.mp takes).2
      obtain ⟨i, found⟩ := List.mem_iff_getElem?.mp mem
      cases hi.symm.trans ((indexOf?_eq_some_iff distinct).mpr ⟨param.1, found⟩)
    | some i =>
      obtain ⟨ty, found⟩ := (indexOf?_eq_some_iff distinct).mp hi
      refine .inl ⟨_, rfl, Signature.takes_concat.mpr ⟨takes, ?_⟩, ?_⟩
      · exact List.mem_map.mpr ⟨_, List.mem_of_getElem? found, rfl⟩
      · refine ⟨by rw [List.length_set, bound.places], ?_, ?_,
          bound.set (List.getElem?_eq_some_iff.mp found).1 fun j w => ?_⟩
        · rw [Piece.positions_concat]
          exact bound.position
        · rw [List.any_append]
          exact (Bool.or_true _).symm
        · constructor
          · rintro (⟨same, -⟩ | ⟨other, ty', same, there⟩)
            · cases same
            · cases same
              have same := (indexOf?_eq_some_iff distinct).mpr ⟨ty', there⟩
              exact ⟨Option.some.inj (same.symm.trans hi), rfl⟩
          · rintro ⟨rfl, rfl⟩
            exact .inr ⟨name, ty, rfl, found⟩
  | names =>
    refine .inl ⟨_, rfl, Signature.takes_concat.mpr ⟨takes, trivial⟩, bound.places, ?_, ?_,
      bound.keep fun i v => ?_⟩
    · rw [Piece.positions_concat]
      exact bound.position
    · rw [List.any_append]
      exact (Bool.or_true _).symm
    · rintro (⟨same, -⟩ | ⟨_, _, same, -⟩) <;> cases same
  | stuck v => exact .inr ⟨_, rfl, fun takes => (Signature.takes_concat.mp takes).2, rfl⟩

/-- **Binding all pieces.** It succeeds if all fit, and else fails with the error of the first one
that does not. -/
theorem Bound.run (distinct : (s.params.map (·.2)).Nodup) (bound : Bound s ps args)
    (takes : s.Takes ps) (rest : List Piece) :
    (∃ args', rest.foldlM (bindPiece s) args = .ok args' ∧ s.Takes (ps ++ rest) ∧
      Bound s (ps ++ rest) args') ∨
      ∃ before p after e, rest = before ++ p :: after ∧ s.Takes (ps ++ before) ∧
        ¬s.Takes (ps ++ before ++ [p]) ∧ rest.foldlM (bindPiece s) args = .error e ∧
        e.code = p.code := by
  induction rest generalizing ps args with
  | nil => exact .inl ⟨args, rfl, by rwa [List.append_nil], by rwa [List.append_nil]⟩
  | cons p rest ih =>
    rw [List.foldlM_cons]
    rcases bound.step distinct takes p with ⟨args', same, takes', bound'⟩ | ⟨e, same, not, code⟩
    · rw [same]
      rcases ih bound' takes' with ⟨args₂, run, takes₂, bound₂⟩ | ⟨before, q, after, e, rfl, first,
        not, run, code⟩
      · rw [List.append_assoc] at takes₂ bound₂
        exact .inl ⟨args₂, run, takes₂, bound₂⟩
      · rw [← List.append_cons] at first not
        exact .inr ⟨p :: before, q, after, e, rfl, first, not, run, code⟩
    · rw [same]
      refine .inr ⟨[], p, rest, e, rfl, ?_, ?_, rfl, code⟩
      · rwa [List.append_nil]
      · rwa [List.append_nil]

end Arguments

/-! ## Functions -/

namespace FunctionObject

open CallArgument

/-- Each parameter has the last value that is meant for it, and else its default. -/
structure Fills (f : FunctionObject) (ps : List Piece) (values : List Value) : Prop where
  places : values.length = f.signature.arity
  given : ∀ i, i < f.signature.arity → ∀ v, f.signature.Given ps i v → values[i]? = some v
  default : ∀ i, i < f.signature.arity → (∀ v, ¬f.signature.Given ps i v) →
    values[i]? = f.defaults[i]?

variable {f : FunctionObject}

theorem bind_eq (f : FunctionObject) (args : List CallArgument) : f.bind args = do
    let bound ← (args.flatMap pieces).foldlM (Arguments.bindPiece f.signature)
      (Arguments.empty f.signature)
    return bound.bound.zipWith (fun v default => v.getD default) f.defaults := by
  rw [FunctionObject.bind, Arguments.bindAll_eq]

theorem fills_of_bound {ps : List Piece} {args : Arguments} (bound : args.Bound f.signature ps)
    (complete : f.defaults.length = f.signature.arity) :
    f.Fills ps (args.bound.zipWith (fun v default => v.getD default) f.defaults) := by
  have value : ∀ i, i < f.signature.arity → ∃ entry default, args.bound[i]? = some entry ∧
      f.defaults[i]? = some default ∧
      (args.bound.zipWith (fun v default => v.getD default) f.defaults)[i]? =
        some (entry.getD default) := by
    intro i lt
    have inBound : i < args.bound.length := by rwa [bound.places]
    have inDefaults : i < f.defaults.length := by rwa [complete]
    refine ⟨_, _, List.getElem?_eq_getElem inBound, List.getElem?_eq_getElem inDefaults, ?_⟩
    rw [List.getElem?_zipWith, List.getElem?_eq_getElem inBound,
      List.getElem?_eq_getElem inDefaults]
  refine ⟨?_, fun i lt v given => ?_, fun i lt not => ?_⟩
  · rw [List.length_zipWith, bound.places, complete, Nat.min_self]
  · obtain ⟨entry, default, bound_eq, -, value⟩ := value i lt
    rw [(bound.value i v).mpr ⟨lt, given⟩] at bound_eq
    cases bound_eq
    exact value
  · obtain ⟨entry, default, bound_eq, default_eq, value⟩ := value i lt
    cases entry with
    | none => exact value.trans default_eq.symm
    | some v => exact absurd ((bound.value i v).mp bound_eq).2 (not v)

/-- Binding gives values if everything fits, and else fails at the first piece that does not. -/
theorem bind_cases (distinct : (f.signature.params.map (·.2)).Nodup)
    (complete : f.defaults.length = f.signature.arity) (args : List CallArgument) :
    (f.signature.Takes (args.flatMap pieces) ∧
      ∃ values, f.bind args = .ok values ∧ f.Fills (args.flatMap pieces) values) ∨
      ∃ before p after e, args.flatMap pieces = before ++ p :: after ∧ f.signature.Takes before ∧
        ¬f.signature.Takes (before ++ [p]) ∧ f.bind args = .error e ∧ e.code = p.code := by
  rw [bind_eq]
  rcases (Arguments.bound_empty f.signature).run distinct Signature.takes_nil
    (args.flatMap pieces) with
    ⟨bound, run, takes, isBound⟩ | ⟨before, p, after, e, same, takes, not, run, code⟩
  · rw [run]
    exact .inl ⟨takes, _, rfl, fills_of_bound isBound complete⟩
  · rw [run]
    exact .inr ⟨before, p, after, e, same, takes, not, rfl, code⟩

end FunctionObject

/-! ## Arguments by position alone -/

section Positional

open CallArgument

variable {s : Signature} {values : List Value}

theorem flatMap_pieces_positional (values : List Value) :
    (values.map positional).flatMap pieces = values.map .positional := by
  induction values with
  | nil => rfl
  | cons v rest ih => rw [List.map_cons, List.flatMap_cons, ih]; rfl

theorem positions_positional (values : List Value) :
    Piece.positions (values.map .positional) = values.length := by
  rw [Piece.positions, List.countP_map]
  exact List.countP_eq_length.mpr fun _ _ => rfl

theorem Signature.takes_positional : s.Takes (values.map .positional) ↔
    values.length ≤ s.arity := by
  constructor
  · intro takes
    have fits := takes.fits
    rwa [positions_positional] at fits
  · intro le
    refine ⟨fun v mem => ?_, fun before p after same ends v mem => ?_, ?_, fun name v mem => ?_⟩
    · obtain ⟨_, -, h⟩ := List.mem_map.mp mem
      cases h
    · have mem : p ∈ values.map Piece.positional :=
        same ▸ List.mem_append_right _ (List.mem_cons_self ..)
      obtain ⟨_, -, rfl⟩ := List.mem_map.mp mem
      cases ends
    · rwa [positions_positional]
    · obtain ⟨_, -, h⟩ := List.mem_map.mp mem
      cases h

/-- The values go to the parameters in order. -/
theorem Signature.given_positional {i : Nat} {v : Value} :
    s.Given (values.map .positional) i v ↔ values[i]? = some v := by
  induction values using List.reverseRecOn with
  | nil => exact ⟨fun h => absurd h Signature.not_given_nil, fun h => (by cases h)⟩
  | append_singleton values last ih =>
    have reaches : ∀ w, s.Reaches (values.map .positional) (.positional last) i w ↔
        i = values.length ∧ w = last := by
      intro w
      rw [Reaches, positions_positional]
      constructor
      · rintro (⟨same, rfl⟩ | ⟨_, _, same, -⟩)
        · cases same
          exact ⟨rfl, rfl⟩
        · cases same
      · rintro ⟨rfl, rfl⟩
        exact .inl ⟨rfl, rfl⟩
    rw [List.map_append, List.map_singleton, Signature.given_concat, ih, List.getElem?_append]
    by_cases same : i = values.length
    · subst same
      simp [reaches, eq_comm]
    · have elsewhere : ∀ w, ¬s.Reaches (values.map .positional) (.positional last) i w :=
        fun w h => same ((reaches w).mp h).1
      simp only [elsewhere, false_or, not_false_eq_true, implies_true, true_and]
      split
      · rfl
      · rw [List.getElem?_eq_none (by omega), List.getElem?_eq_none (by simp; omega)]

end Positional

namespace FunctionObject

open CallArgument

variable {f : FunctionObject} {values : List Value}

/-- Values by position are filled up with defaults. -/
theorem bind_positional (distinct : (f.signature.params.map (·.2)).Nodup)
    (complete : f.defaults.length = f.signature.arity) (le : values.length ≤ f.signature.arity) :
    f.bind (values.map .positional) = .ok (f.padded values) := by
  have takes : f.signature.Takes ((values.map positional).flatMap pieces) := by
    rw [flatMap_pieces_positional]
    exact Signature.takes_positional.mpr le
  rcases bind_cases distinct complete (values.map .positional) with
    ⟨-, bound, same, fills⟩ | ⟨before, p, after, e, same, -, not, -⟩
  · rw [same]
    congr 1
    refine List.ext_getElem? fun i => ?_
    have count := fills.places
    have given := fills.given i
    have default := fills.default i
    rw [flatMap_pieces_positional] at given default
    simp only [Signature.given_positional] at given default
    rw [padded, List.getElem?_append]
    by_cases lt : i < f.signature.arity
    · split
      · next inside => rw [given lt _ (List.getElem?_eq_getElem inside),
          List.getElem?_eq_getElem inside]
      · next outside =>
        rw [default lt fun v h => outside (List.getElem?_eq_some_iff.mp h).1, List.getElem?_drop]
        congr 1
        omega
    · rw [List.getElem?_eq_none (by omega), if_neg (by omega), List.getElem?_eq_none]
      rw [List.length_drop]
      omega
  · rw [same, List.append_cons] at takes
    exact absurd takes.left not

/-- More values by position than there are parameters. -/
theorem bind_positional_excess (distinct : (f.signature.params.map (·.2)).Nodup)
    (complete : f.defaults.length = f.signature.arity) (lt : f.signature.arity < values.length) :
    ∃ e, f.bind (values.map .positional) = .error e ∧ e.code = .unexpectedArgument := by
  rcases bind_cases distinct complete (values.map .positional) with
    ⟨takes, -⟩ | ⟨before, p, after, e, same, -, -, run, code⟩
  · rw [flatMap_pieces_positional, Signature.takes_positional] at takes
    exact absurd takes (Nat.not_le_of_lt lt)
  · refine ⟨e, run, code.trans ?_⟩
    have mem : p ∈ values.map Piece.positional := by
      rw [← flatMap_pieces_positional, same]
      exact List.mem_append_right _ (List.mem_cons_self ..)
    obtain ⟨v, -, rfl⟩ := List.mem_map.mp mem
    rfl

/-- Calls fill up missing arguments with defaults. -/
theorem call_padded {M : Machine} {id : FunctionId} (known : M.memory.function id = f)
    (complete : f.defaults.length = f.signature.arity) (le : values.length ≤ f.signature.arity)
    (supply : Supply) : Eval.call supply id (f.padded values) M = Eval.call supply id values M := by
  have start : Eval.memory M = .ok M.memory M := rfl
  have full := length_padded complete le
  have whole := padded_full complete full
  rw [padded] at whole
  rw [Eval.call, Eval.call, Eval.bind_of_ok start, Eval.bind_of_ok start, known]
  simp only [whole]
  rw [if_neg (by omega), if_neg (by omega), padded]

/-- Binding arguments by position and then calling is calling at once. -/
theorem callBound_positional (distinct : (f.signature.params.map (·.2)).Nodup)
    (complete : f.defaults.length = f.signature.arity) {M : Machine} {id : FunctionId}
    (known : M.memory.function id = f) (le : values.length ≤ f.signature.arity) (watch : Watch)
    (fuel : Nat) :
    Eval.callBound (.watched watch (fuel + 1)) id (values.map .positional) M =
      Supply.watched watch (fuel + 1) (.call id values) M := by
  have bound : (M.memory.function id).bind (values.map .positional) = .ok (f.padded values) := by
    rw [known]
    exact bind_positional distinct complete le
  rw [Eval.callBound, Eval.bind_of_ok (Eval.ask_of_ok bound)]
  exact call_padded known complete le _

/-- Both find out that there are too many arguments, and change nothing. -/
theorem callBound_positional_excess (distinct : (f.signature.params.map (·.2)).Nodup)
    (complete : f.defaults.length = f.signature.arity) {M : Machine} {id : FunctionId}
    (known : M.memory.function id = f) (lt : f.signature.arity < values.length) (watch : Watch)
    (fuel : Nat) : ∃ e e',
      Eval.callBound (.watched watch (fuel + 1)) id (values.map .positional) M =
        .error (.raised e) M ∧ Supply.watched watch (fuel + 1) (.call id values) M =
          .error (.raised e') M ∧ e.code = e'.code := by
  obtain ⟨e, bound, code⟩ := bind_positional_excess distinct complete lt
  refine ⟨e, .tooManyArguments f.signature.arity values.length, ?_, ?_, code⟩
  · have asked : Eval.ask (fun m => (m.function id).bind (values.map .positional)) M =
        .error (.raised e) M := by
      show Eval.ofExcept ((M.memory.function id).bind _) M = _
      rw [known, bound]
      rfl
    rw [Eval.callBound, Eval.bind_of_error asked]
  · have start : Eval.memory M = .ok M.memory M := rfl
    show Eval.call (Supply.watched watch fuel) id values M = _
    rw [Eval.call, Eval.bind_of_ok start, known]
    simp only
    rw [if_pos lt]
    rfl

/-- **Binding arguments.** Spread out, the arguments are bound if and only if they fit: everything
could be spread out, no value by position comes after a name or a dictionary, there are at most as
many values by position as parameters, and every name is that of a parameter. Then each parameter
has the last value that is meant for it, and else its default. If they do not fit, binding fails at
the first piece with which they do not: with a cast error if that could not be spread out, and else
because it was not expected. Binding arguments by position alone and then calling is the same as
calling at once, but for the message if there are too many. -/
theorem bind_exact (distinct : (f.signature.params.map (·.2)).Nodup)
    (complete : f.defaults.length = f.signature.arity) :
    (∀ args : List CallArgument,
      ((∃ values, f.bind args = .ok values) ↔ f.signature.Takes (args.flatMap pieces)) ∧
      (∀ values, f.bind args = .ok values → f.Fills (args.flatMap pieces) values) ∧
      (¬f.signature.Takes (args.flatMap pieces) → ∃ before p after e,
        args.flatMap pieces = before ++ p :: after ∧ f.signature.Takes before ∧
          ¬f.signature.Takes (before ++ [p]) ∧ f.bind args = .error e ∧ e.code = p.code)) ∧
    ∀ (watch : Watch) (fuel : Nat) (M : Machine) (id : FunctionId) (values : List Value),
      M.memory.function id = f →
        (values.length ≤ f.signature.arity →
          Eval.callBound (.watched watch (fuel + 1)) id (values.map .positional) M =
            Supply.watched watch (fuel + 1) (.call id values) M) ∧
        (f.signature.arity < values.length → ∃ e e',
          Eval.callBound (.watched watch (fuel + 1)) id (values.map .positional) M =
              .error (.raised e) M ∧
            Supply.watched watch (fuel + 1) (.call id values) M = .error (.raised e') M ∧
              e.code = e'.code) := by
  refine ⟨fun args => ?_, fun watch fuel M id values known =>
    ⟨fun le => callBound_positional distinct complete known le watch fuel,
      fun lt => callBound_positional_excess distinct complete known lt watch fuel⟩⟩
  rcases bind_cases distinct complete args with
    ⟨takes, values, run, fills⟩ | ⟨before, p, after, e, same, takes, not, run, code⟩
  · refine ⟨⟨fun _ => takes, fun _ => ⟨values, run⟩⟩, fun other h => ?_, fun not =>
      absurd takes not⟩
    cases run.symm.trans h
    exact fills
  · have outside : ¬f.signature.Takes (args.flatMap pieces) := by
      rw [same, List.append_cons]
      exact fun whole => not whole.left
    refine ⟨⟨?_, fun h => absurd h outside⟩, ?_,
      fun _ => ⟨before, p, after, e, same, takes, not, run, code⟩⟩
    · rintro ⟨values, h⟩
      cases run.symm.trans h
    · intro values h
      cases run.symm.trans h

/-- The theorem at a function of two parameters, with arguments that set one of them twice: by
position and by name. -/
theorem bind_exact_comparer :
    (comparer.signature.params.map (·.2)).Nodup ∧ comparer.defaults.length =
      comparer.signature.arity ∧ ∃ args : List CallArgument,
        args = [.positional (.long 1), .splat (.dict 0 [("b", .long 2)]), .named "a" (.long 3)] ∧
          comparer.bind args = .ok [.long 3, .long 2] ∧
            comparer.Fills (args.flatMap pieces) [.long 3, .long 2] := by
  have distinct : (comparer.signature.params.map (·.2)).Nodup := by decide
  obtain ⟨bound, -⟩ := bind_exact (f := comparer) distinct rfl
  refine ⟨distinct, rfl, _, rfl, rfl, ?_⟩
  exact (bound _).2.1 _ rfl

end FunctionObject

end CellScript
