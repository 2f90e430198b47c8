import CellScript.Proofs.Eval.Lines
import CellScript.Proofs.Eval.Patterns
import CellScript.Proofs.Session.Safety
import CellScript.Proofs.Syntax.Occurs

/-!
# Matches of accepted programs

In a program that analysis accepts, the scope of a line holds the names that its pattern captures
and nothing else. So a pattern that matches has exactly one part of the subject for each cell of the
line's space, wherever in the pattern it is captured. Which parts of the subject these are, and when
they make up the whole of it, is what `Pattern.Matches` says.

* `Code.Pattern.CapturesAll` — whenever the pattern matches, all slots are bound, each of them once
* `Code.Pattern.capturesAll_of_perm` — so it is if the pattern names all slots, each of them once
* `Session.matches_whole` — all lines of an accepted program have such patterns, and so has every
  line that is ever tried
-/

namespace CellScript

open Code (Op)

variable {a : Analysis} {K : FunctionId → Ty → Prop}

/-! ## Patterns that capture something for each slot -/

/-- With several bindings for no slot, each binding is the one that counts. -/
theorem Bindings.value?_of_mem {bindings : Bindings} (nodup : (bindings.map (·.1)).Nodup)
    {slot : Nat} {v : Value} (mem : (slot, v) ∈ bindings) : bindings.value? slot = some v := by
  induction bindings with
  | nil => cases mem
  | cons binding rest ih =>
    obtain ⟨other, w⟩ := binding
    rw [List.map_cons, List.nodup_cons] at nodup
    rw [Eval.value?_cons]
    rcases List.mem_cons.mp mem with same | later
    · obtain ⟨rfl, rfl⟩ := Prod.mk.inj same
      rw [if_pos rfl]
    · have differs : other ≠ slot := by
        rintro rfl
        exact nodup.1 (List.mem_map.mpr ⟨(other, v), later, rfl⟩)
      rw [if_neg differs, ih nodup.2 later]

namespace Code

/-- Whenever the pattern matches a subject, there is one binding for each of so many slots and no
other one, and at every pattern in it the parts make up what was taken apart. In a new space of so
many cells every cell then holds what is bound to it. -/
def Pattern.CapturesAll (p : Pattern) (count : Nat) : Prop :=
  ∀ (s : Supply) (space : SpaceId) (subject : Value) (M : Machine) (bindings : Bindings)
    (M' : Machine), p.captures s space subject M = .ok (some bindings) M' →
      (bindings.map (·.1)).Perm (List.range count) ∧ p.Matches s space subject M bindings M' ∧
      ∀ template : Template, template.slots.length = count →
        (∀ id v, s.bind id v = Eval.bindCell id v) →
        ∃ M'', Eval.bindSlots s M'.memory.spaces.size bindings
          { M' with memory := (M'.memory.child template space).2 } = .ok ⟨⟩ M'' ∧
            ∀ slot, slot < count → ∃ v, (slot, v) ∈ bindings ∧
              (M''.memory.cell ⟨M'.memory.spaces.size, slot⟩).value = some v

theorem Pattern.capturesAll_of_perm {p : Pattern} {count : Nat}
    (all : p.slots.Perm (List.range count)) :
    p.CapturesAll count := by
  intro s space subject M bindings M' captured
  have parts := p.matches_of_captures captured
  have slots : (bindings.map (·.1)).Perm (List.range count) := by
    rw [parts.slots_eq]
    exact all
  refine ⟨slots, parts, fun template size cells => ?_⟩
  have laid :
      ((M'.memory.child template space).2.space M'.memory.spaces.size).cells.size = count := by
    rw [Memory.space_child, ← size]
    simp [Space.ofTemplate]
  have inside : ∀ binding ∈ bindings, binding.1 <
      ((M'.memory.child template space).2.space M'.memory.spaces.size).cells.size := by
    intro binding mem
    rw [laid]
    exact List.mem_range.mp (slots.mem_iff.mp (List.mem_map_of_mem mem))
  obtain ⟨M'', bound⟩ := Eval.bindSlots_runs (s := s)
    (M := { M' with memory := (M'.memory.child template space).2 }) cells inside
  refine ⟨M'', bound, fun slot lt => ?_⟩
  obtain ⟨binding, mem, rfl⟩ := List.mem_map.mp (slots.mem_iff.mpr (List.mem_range.mpr lt))
  refine ⟨binding.2, mem, ?_⟩
  have new : M'.memory.spaces.size < (M'.memory.child template space).2.spaces.size := by
    rw [Memory.child, Memory.size_spaces_newSpace]
    exact Nat.lt_succ_self _
  rw [(Eval.bindSlots_eq_ok cells new bound).2 binding.1]
  show ((M'.memory.child template space).2.cell _).value.or _ = _
  rw [Memory.value_child, Option.none_or]
  exact Bindings.value?_of_mem (slots.nodup_iff.mpr List.nodup_range) mem

end Code

/-! ## Lines of the source -/

/-- Each line has a scope, which holds what its pattern captures. -/
theorem soundLines_fills {R : ScopeId → NodeId → Prop} {σ : ScopeId} {lines : List MatchLine}
    (h : soundLines a R σ lines) : ∀ l ∈ lines, ∃ inner,
      a.createdScopes.get? l.node.id = some inner ∧
        a.Fills (l.pattern.captures.map (·.node.id)) inner := by
  induction lines with
  | nil => exact fun l mem => by cases mem
  | cons line rest ih =>
    obtain ⟨node, pattern, guard, result⟩ := line
    obtain ⟨-, ⟨inner, block, fills, -⟩, later⟩ := h
    exact List.forall_mem_cons.mpr ⟨⟨inner, block.created, fills⟩, ih later⟩

/-- Analysis has made a scope for the line, which holds the names that the pattern captures, at any
depth, and nothing else. However it is compiled, the pattern captures something for each of its
slots. -/
def Analysis.CapturesWhole (a : Analysis) (l : MatchLine) : Prop :=
  ∃ σ, a.createdScopes.get? l.node.id = some σ ∧
    a.Fills (l.pattern.captures.map (·.node.id)) σ ∧
    ∀ (c : Compiler), c.analysis = a → ∀ (function : Option NodeId) (compiling : Compiling),
      (c.pattern function l.pattern compiling).1.CapturesAll (a.arena.scope σ).slots.length

theorem Analysis.Accepts.capturesWhole {units : UnitSet} (accepts : a.Accepts units) {node : Node}
    {subject : Expr} {lines : List MatchLine}
    (located : units.Contains (.matchOn node subject lines)) :
    ∀ l ∈ lines, a.CapturesWhole l := by
  intro l mem
  obtain ⟨σ, sound⟩ := accepts.sound located
  obtain ⟨inner, created, fills⟩ := soundLines_fills sound.2 l mem
  refine ⟨inner, created, fills, fun c same function compiling => ?_⟩
  exact Code.Pattern.capturesAll_of_perm
    (fills.pattern_slots accepts.ready c same function compiling)

/-! ## Lines that are tried -/

/-- The operation, if it is a match, has lines that lay out the cells of a scope of the program, and
whose patterns capture something for each of them. -/
def Code.Op.MatchesWhole (a : Analysis) (op : Op) : Prop :=
  ∀ subject lines, op.action = .matchOn subject lines → ∀ line ∈ lines, ∃ σ,
    line.template.slots.map (·.symbol) = (a.arena.scope σ).slots ∧
      line.pattern.CapturesAll line.template.slots.length

theorem Code.linesOk_capturesAll {σ : Option ScopeId} {lines : List Code.Line}
    (ok : Code.linesOk a K σ lines) : ∀ line ∈ lines, ∃ inner,
      line.template.slots.map (·.symbol) = (a.arena.scope inner).slots ∧
        line.pattern.CapturesAll line.template.slots.length := by
  induction lines with
  | nil => exact fun line mem => by cases mem
  | cons line rest ih =>
    obtain ⟨pattern, template, guard, result⟩ := line
    obtain ⟨⟨inner, -, laid, -, slots, -⟩, later⟩ := ok
    have symbols := ((Code.template_ok_iff template).mp laid).2.1
    have size : template.slots.length = (a.arena.scope inner).slots.length := by
      rw [← symbols, List.length_map]
    refine List.forall_mem_cons.mpr ⟨⟨inner, symbols, ?_⟩, ih later⟩
    rw [size]
    exact Code.Pattern.capturesAll_of_perm slots

theorem Code.Op.Ok.matchesWhole {op : Op} {σ : Option ScopeId} (ok : op.Ok a K σ) :
    op.MatchesWhole a := by
  obtain ⟨span, action⟩ := op
  rintro subject lines rfl
  exact Code.linesOk_capturesAll ok.2

/-- **A match binds every slot once.** In a program that analysis accepts, the pattern of every line
captures something for each slot of the line's scope, whatever it is matched with, and nothing else:
no binding is lost and none is made twice. The same holds of every line of every match that is ever
evaluated: whatever is asked of a session, a watch that tests it never ends the evaluation. -/
theorem Session.matches_whole {units : UnitSet} (numbered : units.Numbered)
    (accepted : analyze false units = .ok a) (options : Code.Options) :
    (∀ node subject lines, units.Contains (.matchOn node subject lines) →
      ∀ l ∈ lines, a.CapturesWhole l) ∧
    ∃ s, Session.start options units a = .ok s ∧
      s.Withstands (.asserting (fun op _ _ => op.MatchesWhole a) fun _ _ => True) := by
  have accepts := analyze_accepts numbered accepted
  refine ⟨fun node subject lines located => accepts.capturesWhole located, ?_⟩
  obtain ⟨K, s, start, ok⟩ := Session.start_ok options numbered accepts
  refine ⟨s, start, fun requests => ?_⟩
  have allows : (Watch.asserting (fun op _ _ => op.MatchesWhole a) fun _ _ => True).Allows a K :=
    Watch.asserting_allows (fun _ _ _ _ _ _ ok => ok.matchesWhole) fun _ _ _ _ => trivial
  obtain ⟨same, ordinary, -⟩ := Session.serve_ok accepts allows requests ok
  exact ⟨same, fun reply mem => (ordinary reply mem).plain.1⟩

/-- The theorem at a program with a match that takes a list apart. -/
theorem Session.matches_whole_captures : ∃ a s, analyze false captureProgram = .ok a ∧
    Session.start ⟨true, true⟩ captureProgram a = .ok s ∧
    (∀ node subject lines, captureProgram.Contains (.matchOn node subject lines) →
      ∀ l ∈ lines, a.CapturesWhole l) ∧
    s.Withstands (.asserting (fun op _ _ => op.MatchesWhole a) fun _ _ => True) := by
  obtain ⟨a, accepted⟩ := captureProgram_accepted
  obtain ⟨source, s, start, served⟩ :=
    Session.matches_whole captureProgram_numbered accepted ⟨true, true⟩
  exact ⟨a, s, accepted, start, source, served⟩

end CellScript
