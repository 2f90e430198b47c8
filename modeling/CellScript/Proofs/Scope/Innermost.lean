import CellScript.Proofs.Linking.Program
import CellScript.Proofs.Scope.Outlined
import CellScript.Scope.Inspect
import Mathlib.Data.List.Induction

/-!
# The innermost node at a position

Visited nodes are looked through once, in order, and one of them is kept: the next node that covers
the position takes its place if it does not stick out of it. Regions need not be nested, so a node
may be passed over although the kept one does not contain it. None of those lies strictly inside the
node that is kept in the end, since that one lies inside all that were kept before.

* `Span.StrictlyWithin`, `Span.SameExtent` — how the regions of two nodes lie
* `Analysis.Innermost` — the invariant: what is kept of the nodes so far
* `Analysis.Innermost.step`, `Analysis.innermost_foldl` — one node keeps it, and so do all
* `Analysis.inspect_innermost` — what is found at a position
-/

namespace CellScript

namespace Span

/-- The region lies inside the other one, and not the other way round. -/
def StrictlyWithin (inner outer : Span) : Prop :=
  inner.within outer = true ∧ ¬outer.within inner = true

/-- The regions begin and end at the same positions. -/
def SameExtent (s t : Span) : Prop := s.start = t.start ∧ s.stop = t.stop

variable {s t u : Span}

theorem SameExtent.within (h : s.SameExtent t) : s.within t = true := by
  rw [Span.within, h.1, h.2]
  exact within_refl t

theorem SameExtent.contains (h : s.SameExtent t) (line column : Nat) :
    s.contains line column = t.contains line column := by
  have sameLine : s.line = t.line := congrArg Prod.fst h.1
  rw [Span.contains, Span.contains, hasPosition, hasPosition, sameLine, h.1, h.2]

theorem not_strictlyWithin_self (s : Span) : ¬s.StrictlyWithin s := fun h => h.2 (within_refl s)

/-- What lies strictly inside a region lies strictly inside every larger one. -/
theorem StrictlyWithin.trans_within (h : s.StrictlyWithin t) (larger : t.within u = true) :
    s.StrictlyWithin u :=
  ⟨within_trans h.1 larger, fun back => h.2 (within_trans larger back)⟩

end Span

namespace Analysis

/-- The node stands in the file and its region covers the position. -/
def CoversAt (file line column : Nat) (p : NodeId × Span) : Prop :=
  p.2.file = file ∧ p.2.contains line column = true

/-- The node is the last one of its extent, and no other one lies strictly inside it. -/
structure Innermost (hits : List (NodeId × Span)) (best : NodeId × Span) : Prop where
  last : ∃ before after, hits = before ++ best :: after ∧
    ∀ hit ∈ after, ¬hit.2.SameExtent best.2
  minimal : ∀ hit ∈ hits, ¬hit.2.StrictlyWithin best.2

namespace Innermost

variable {hits : List (NodeId × Span)} {best hit : NodeId × Span}

theorem single (hit : NodeId × Span) : Innermost [hit] hit where
  last := ⟨[], [], rfl, fun _ mem => absurd mem List.not_mem_nil⟩
  minimal other mem := by
    rw [List.mem_singleton.mp mem]
    exact hit.2.not_strictlyWithin_self

/-- A node that lies inside the kept one takes its place. -/
theorem replace (h : Innermost hits best) (inside : hit.2.within best.2 = true) :
    Innermost (hits ++ [hit]) hit where
  last := ⟨hits, [], rfl, fun _ mem => absurd mem List.not_mem_nil⟩
  minimal other mem := by
    rcases List.mem_append.mp mem with old | new
    · exact fun strictly => h.minimal other old (strictly.trans_within inside)
    · rw [List.mem_singleton.mp new]
      exact hit.2.not_strictlyWithin_self

/-- A node that sticks out of the kept one is passed over. -/
theorem keep (h : Innermost hits best) (outside : ¬hit.2.within best.2 = true) :
    Innermost (hits ++ [hit]) best := by
  obtain ⟨before, after, split, last⟩ := h.last
  refine ⟨⟨before, after ++ [hit], by rw [split, List.append_assoc, List.cons_append], ?_⟩, ?_⟩
  · intro other mem
    rcases List.mem_append.mp mem with old | new
    · exact last other old
    · rw [List.mem_singleton.mp new]
      exact fun same => outside same.within
  · intro other mem
    rcases List.mem_append.mp mem with old | new
    · exact h.minimal other old
    · rw [List.mem_singleton.mp new]
      exact fun strictly => outside strictly.1

/-- **One more node**: whichever of the two is kept is the innermost one so far. -/
theorem step (h : Innermost hits best) (hit : NodeId × Span) :
    ∃ next, better (some best) hit = some next ∧ Innermost (hits ++ [hit]) next := by
  by_cases inside : hit.2.within best.2 = true
  · exact ⟨hit, by rw [better, if_pos inside], h.replace inside⟩
  · exact ⟨best, by rw [better, if_neg inside], h.keep inside⟩

end Innermost

/-- **All nodes, one after the other**: the innermost one is kept, if there is any. -/
theorem innermost_foldl (hits : List (NodeId × Span)) :
    match hits.foldl better none with
    | none => hits = []
    | some best => Innermost hits best := by
  induction hits using List.reverseRecOn with
  | nil => rfl
  | append_singleton hits hit ih =>
    rw [List.foldl_concat]
    cases kept : hits.foldl better none with
    | none =>
      rw [kept] at ih
      subst ih
      exact .single hit
    | some best =>
      rw [kept] at ih
      obtain ⟨next, taken, innermost⟩ := ih.step hit
      rw [taken]
      exact innermost

/-- The nodes at a position are those that cover it. -/
theorem mem_hits_iff {positions : List (NodeId × Span)} {file line column : Nat}
    {p : NodeId × Span} :
    p ∈ positions.filter (fun p => p.2.file == file && p.2.contains line column) ↔
      p ∈ positions ∧ CoversAt file line column p := by
  rw [List.mem_filter, Bool.and_eq_true, beq_iff_eq, CoversAt]

/-- Nothing is found exactly if no node covers the position. -/
theorem innermost?_eq_none {positions : List (NodeId × Span)} {file line column : Nat}
    (h : innermost? positions file line column = none) :
    ∀ p ∈ positions, ¬CoversAt file line column p := by
  have empty := innermost_foldl
    (positions.filter fun p => p.2.file == file && p.2.contains line column)
  rw [innermost?] at h
  rw [h] at empty
  intro p mem covers
  have hit := mem_hits_iff.mpr ⟨mem, covers⟩
  rw [empty] at hit
  exact absurd hit List.not_mem_nil

/-- What is found covers the position. No other such node lies strictly inside it, and none of the
same extent is visited later. -/
theorem innermost?_eq_some {positions : List (NodeId × Span)} {file line column : Nat}
    {best : NodeId × Span} (h : innermost? positions file line column = some best) :
    ∃ before after, positions = before ++ best :: after ∧ CoversAt file line column best ∧
      (∀ p ∈ positions, CoversAt file line column p → ¬p.2.StrictlyWithin best.2) ∧
      ∀ p ∈ after, p.2.file = file → ¬p.2.SameExtent best.2 := by
  have innermost := innermost_foldl
    (positions.filter fun p => p.2.file == file && p.2.contains line column)
  rw [innermost?] at h
  rw [h] at innermost
  obtain ⟨⟨before, after, split, last⟩, minimal⟩ := innermost
  obtain ⟨before', rest, rfl, -, tail⟩ := List.filter_eq_append_iff.mp split
  obtain ⟨passed, after', rfl, -, covers, rfl⟩ := List.filter_eq_cons_iff.mp tail
  have covered : CoversAt file line column best := by
    rwa [Bool.and_eq_true, beq_iff_eq] at covers
  refine ⟨before' ++ passed, after', (List.append_assoc ..).symm, covered,
    fun p mem covers => minimal p (mem_hits_iff.mpr ⟨mem, covers⟩), fun p mem inFile same => ?_⟩
  have covers : CoversAt file line column p := ⟨inFile, (same.contains line column).trans covered.2⟩
  exact last p (mem_hits_iff.mpr ⟨mem, covers⟩) same

end Analysis

/-- Every unit that analysis knows has members, with and without recovery. -/
theorem analyze_unit_members {recovery : Bool} {units : UnitSet} {a : Analysis}
    (h : analyze recovery units = .ok a) {path : String} {s : SymbolId}
    (hs : a.unit? path = some s) :
    ∃ members, (a.arena.symbol s).members = some members := by
  obtain ⟨built, pending, linked, resolved, hb, hl, hr, rfl⟩ := analyze_eq_ok h
  obtain ⟨-, bound, binds, moved, ⟨same, -⟩, -⟩ := linkUnits_built hb hl
  obtain ⟨b, steps, rfl, rfl⟩ := buildScopes_steps hb
  have kept := Analysis.resolveAll_kept _ hr
  have annotated := resolved.captureAll_annotated units
  have found : Entries.get? b.analysis.units path = some s := by
    rw [← hs, Analysis.unit?, annotated.units, kept, same]
  have members := ((steps.formed (Building.formed_start recovery)).unit path s found).2.2
  rw [annotated.arena, kept]
  rw [moved.symbol, (binds.sameBut s).members]
  exact Option.isSome_iff_exists.mp members

namespace Analysis

/-- **What is found at a position of a file.** If nodes cover the position, it is one of them: none
that covers it lies strictly inside that one, and none of the same extent was visited later. Whether
the regions are nested does not matter. If no node covers it, it is the scope of the members of the
unit, or nothing at all if there is no unit at that path. -/
theorem inspect_innermost {recovery : Bool} {units : UnitSet} {a : Analysis}
    (h : analyze recovery units = .ok a) {files : SourceMap} {path : String} {file : Nat}
    (registered : files.fileId? path = some file) (line column : Nat) :
    ((∃ p ∈ a.positions, CoversAt file line column p) →
      ∃ before node span after, a.positions = before ++ (node, span) :: after ∧
        CoversAt file line column (node, span) ∧
        (∀ p ∈ a.positions, CoversAt file line column p → ¬p.2.StrictlyWithin span) ∧
        (∀ p ∈ after, p.2.file = file → ¬p.2.SameExtent span) ∧
        a.inspect files path line column = some (a.describe node)) ∧
    ((∀ p ∈ a.positions, ¬CoversAt file line column p) →
      (∀ unit, a.unit? path = some unit → ∃ members,
        (a.arena.symbol unit).members = some members ∧
          a.inspect files path line column = some (.scope members)) ∧
      (a.unit? path = none → a.inspect files path line column = none)) := by
  cases found : innermost? a.positions file line column with
  | none =>
    have uncovered := innermost?_eq_none found
    refine ⟨fun ⟨p, mem, covers⟩ => absurd covers (uncovered p mem), fun _ => ⟨?_, ?_⟩⟩
    · intro unit hu
      obtain ⟨members, hm⟩ := analyze_unit_members h hu
      refine ⟨members, hm, ?_⟩
      simp only [inspect, registered, found, hu, hm, Option.bind_eq_bind, Option.bind_some,
        Option.pure_def]
    · intro hu
      simp only [inspect, registered, found, hu, Option.bind_eq_bind, Option.bind_some,
        Option.bind_none]
  | some best =>
    obtain ⟨before, after, split, covers, minimal, last⟩ := innermost?_eq_some found
    refine ⟨fun _ => ⟨before, best.1, best.2, after, split, covers, minimal, last, ?_⟩,
      fun none => ?_⟩
    · simp only [inspect, registered, found, Option.bind_eq_bind, Option.bind_some, Option.pure_def]
    · exact absurd covers (none best (split ▸ List.mem_append_right _ (List.mem_cons_self ..)))

/-- A module with one definition. The region of its value begins inside that of the definition and
ends behind it. -/
def overlappingRegions : UnitSet :=
  [⟨⟨.tree 0, .ofLines 1 1 1 9 9⟩, "m", 1, .module
      { globalName := none, imports := [], aliases := [], exports := []
        libraries := [⟨⟨.tree 1, .ofLines 1 1 1 8 1⟩, "l", true,
          [⟨⟨.tree 2, .ofLines 1 2 3 4 5⟩, "x", .any,
            .constant ⟨.tree 3, .ofLines 1 3 1 6 1⟩ (.boolean true)⟩]⟩] }⟩]

/-- The theorem at a position that both regions cover. -/
theorem inspect_innermost_overlapping : ∃ a, analyze false overlappingRegions = .ok a ∧
    SourceMap.fileId? [⟨"m", none⟩] "m" = some 1 ∧ (∃ p ∈ a.positions, CoversAt 1 3 2 p) ∧
    ∃ before node span after, a.positions = before ++ (node, span) :: after ∧
      CoversAt 1 3 2 (node, span) ∧
      (∀ p ∈ a.positions, CoversAt 1 3 2 p → ¬p.2.StrictlyWithin span) ∧
      (∀ p ∈ after, p.2.file = 1 → ¬p.2.SameExtent span) ∧
      a.inspect [⟨"m", none⟩] "m" 3 2 = some (a.describe node) := by
  have covered : (analyze false overlappingRegions).toOption.any (fun a =>
      a.positions.any fun p => p.2.file == 1 && p.2.contains 3 2) = true := by decide +kernel
  cases h : analyze false overlappingRegions with
  | error fault =>
    rw [h] at covered
    cases covered
  | ok a =>
    rw [h] at covered
    obtain ⟨p, mem, covers⟩ := List.any_eq_true.mp covered
    have here : ∃ p ∈ a.positions, CoversAt 1 3 2 p :=
      ⟨p, mem, by rwa [Bool.and_eq_true, beq_iff_eq] at covers⟩
    have registered : SourceMap.fileId? [⟨"m", none⟩] "m" = some 1 := by decide
    exact ⟨a, rfl, registered, here, (inspect_innermost h registered 3 2).1 here⟩

-- The definition is found: its value sticks out of it and is passed over.
example : (match analyze false overlappingRegions with
    | .ok a => a.inspect [⟨"m", none⟩] "m" 3 2
    | .error _ => none) = some (.symbol 2) := by decide +kernel

end Analysis

end CellScript
