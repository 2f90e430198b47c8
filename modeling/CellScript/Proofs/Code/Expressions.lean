import CellScript.Proofs.Code.Compiles

/-!
# Compiled expressions

An expression that analysis has accepted becomes an operation that finds all it looks at, and looks
at no later names of a comprehension than the expression asks for.

* `Compiler.expr_compiles` — by recursion over the expression
-/

namespace CellScript

open Code

variable {α β : Type} {a : Analysis} {s s' : Compiling}

namespace Compiler

variable {c : Compiler} {σ : ScopeId}
  {function : Option NodeId} {ids : List NodeId} {units : UnitSet}

section Walk

variable (rooted : c.analysis.Rooted) (supplied : c.analysis.Supplied)

include rooted supplied

set_option linter.unusedSectionVars false

mutual

/-- **An expression becomes an operation that finds all it looks at**, and looks no further than the
expression asks. -/
theorem expr_compiles {σ : ScopeId} {function : Option NodeId} {s : Compiling}
    (inside : c.analysis.arena.InFunction σ function) :
    ∀ e : Expr, e.Sound c.analysis c.analysis.Reaches σ → c.analysis.Ordered e →
      s.Awaits c.analysis e.nodeIds →
      Compiles c.analysis e.nodeIds s (c.expr function e) fun op K =>
        c.analysis.Suits σ [e] (op.Ok c.analysis K (some σ)) (op.Below · ·)
  | .constant node l, _, _, ok => by
    rw [expr]
    exact .always ok.toOk fun K => (constant_ok node l K).whole (e := .constant node l)
  | .reference node r, h, _, ok => by
    rw [expr]
    exact .always ok.toOk fun K => reference_ok rooted inside node r h K
  | .list _ items, h, ordered, ok => by
    rw [expr]
    refine .tail ok fun ok => (items_compiles inside items h ordered.children ok).last
      fun _ s₁ ok₁ _ hitems => ?_
    exact finish_compiles rooted ok₁ fun K known => (hitems K known).whole
  | .dict _ entries, h, ordered, ok => by
    rw [expr]
    refine .tail ok fun ok => (entries_compiles inside entries h ordered.children ok).last
      fun _ s₁ ok₁ _ hentries => ?_
    exact finish_compiles rooted ok₁ fun K known => (hentries K known).whole
  | .function node ps returns body, ⟨defaults, inner, function, hbody⟩, ordered, ok => by
    rw [expr]
    simp only [function.created, function.standing]
    have owner : c.analysis.arena.ownerNode? inner = some node.id := by
      rw [Arena.ownerNode?, function.kind]
    refine .narrow ok List.perm_middle.subperm fun ok => .bind ok
      (params_compiles inside ps defaults ordered.children.left)
      fun params s₁ ok₁ grows₁ hparams => ?_
    refine .bind (l := [node.id]) ok₁ (template_nil_compiles owner)
      fun template s₂ ok₂ grows₂ htemplate => ?_
    refine (expr_compiles (.function function.kind) body hbody ordered.children.right.head ok₂).last
      fun op s₃ ok₃ grows₃ hop => ?_
    obtain ⟨plans, found, plansOk⟩ := rooted.capturePlans_ok inside (c.analysis.closedOver node.id)
      fun t ht => supplied node.id inner σ t function.created function.enclosing ht
    simp only [found]
    refine finish_compiles rooted ok₃ fun K known => ?_
    obtain ⟨⟨paramsOk, types⟩, heeds⟩ := (hparams.grows grows₂).grows grows₃ K known
    refine ⟨⟨paramsOk, node.id, inner, function.kind, (htemplate.grows grows₃ K known).ok, ?_,
      (hop K known).ok, plansOk⟩, fun τ depth count near sees => ?_⟩
    · rw [function.types, types]
    · -- The body is left out of account, but not what it captures.
      have sees := sees _ (List.mem_singleton.mpr rfl)
      refine ⟨heeds τ depth count near fun e mem => sees.child (List.mem_append_left _ mem),
        fun plan mem => ?_⟩
      obtain ⟨i, hi, rfl⟩ := List.getElem_of_mem mem
      obtain ⟨length, ok⟩ := List.forall₂_iff_get.mp plansOk
      exact (ok i hi (length ▸ hi)).below near
        (sees.captured _ inner .whole function.created _ (List.get_mem _ _))
  | .call _ callee args, h, ordered, ok => by
    rw [expr]
    refine .tail ok fun ok => .bind ok (expr_compiles inside callee h.1 ordered.children.head)
      fun _ s₁ ok₁ _ hcallee => ?_
    refine (arguments_compiles inside args h.2 ordered.children.tail ok₁).last
      fun _ s₂ ok₂ grows₂ hargs => ?_
    exact finish_compiles rooted ok₂ fun K known =>
      (((hcallee.grows grows₂ K known).pair (hargs K known)).imp fun ok => ⟨rfl, ok⟩).whole
  | .curry _ callee args, h, ordered, ok => by
    rw [expr]
    refine .tail ok fun ok => .bind ok (expr_compiles inside callee h.1 ordered.children.head)
      fun _ s₁ ok₁ _ hcallee => ?_
    refine (named_compiles inside args h.2 ordered.children.tail ok₁).last
      fun _ s₂ ok₂ grows₂ hargs => ?_
    exact finish_compiles rooted ok₂ fun K known =>
      ((hcallee.grows grows₂ K known).pair (hargs K known)).whole
  | .letIn node bindings body, ⟨inner, block, fills, hbindings, hbody⟩, ordered, ok => by
    rw [expr]
    simp only [block.created]
    have within := Arena.InFunction.block block.kind block.enclosing inside
    refine .bind (l := node.id :: idsOfVars bindings) ok (fun ok => template_compiles
      (owner_block block) ok (inits_compiles within bindings hbindings ordered.children.left)
      fun _ _ h => h.ok.1) fun template s₁ ok₁ _ htemplate => ?_
    refine (expr_compiles within body hbody ordered.children.right.head ok₁).last
      fun _ s₂ ok₂ grows₂ hop => ?_
    refine finish_compiles rooted ok₂ fun K known => ?_
    have inits := htemplate.grows grows₂ K known
    refine (((InitsOk.template inits).pair (hop K known)).out block).imp
      (fun ok => ⟨inner, ⟨σ, node.id, rfl, block.kind, block.enclosing⟩, ok.1, ok.2, ?_⟩) |>.whole
    obtain ⟨_, rfl, suits⟩ := inits
    exact suits.ok.furnished fills
  | .ifElse _ condition thenBranch elseBranch, h, ordered, ok => by
    rw [expr]
    have parts := ordered.children
    refine .tail ok fun ok => .bind ok (expr_compiles inside condition h.1 parts.head)
      fun _ s₁ ok₁ _ hc => ?_
    refine .bind ok₁ (expr_compiles inside thenBranch h.2.1 parts.tail.head)
      fun _ s₂ ok₂ grows₂ ht => ?_
    refine (expr_compiles inside elseBranch h.2.2 parts.tail.tail.head ok₂).last
      fun _ s₃ ok₃ grows₃ he => ?_
    exact finish_compiles rooted ok₃ fun K known => (((hc.grows grows₂).grows grows₃ K known).pair
      ((ht.grows grows₃ K known).pair (he K known))).whole
  | .matchOn _ subject ls, h, ordered, ok => by
    rw [expr]
    refine .tail ok fun ok => .narrow ok List.perm_append_comm.subperm fun ok =>
      .bind ok (lines_compiles inside ls h.2 ordered.children.tail) fun r s₁ ok₁ _ hlines => ?_
    cases r with
    | error op =>
      exact .pure ok₁.toOk fun K known => .bare ((hlines K known).1 _) (hlines K known).2
    | ok ls =>
      refine (expr_compiles inside subject h.1 ordered.children.head ok₁).last
        fun _ s₂ ok₂ grows₂ hsubject => ?_
      exact finish_compiles rooted ok₂ fun K known =>
        ((hsubject K known).pair (hlines.grows grows₂ K known)).whole
  | .forEach node hs body, ⟨inner, block, _, hheads, hbody⟩, ordered, ok => by
    rw [expr]
    simp only [block.created]
    have within := Arena.InFunction.block block.kind block.enclosing inside
    have inOrder := ordered node hs body inner .whole block.created
    have parts := ordered.children
    -- Definitions are compiled with the template, before the sources of generators.
    have sub : ((node.id :: idsOfInits hs) ++ (idsOfSources hs ++ body.nodeIds)).Subperm
        (node.id :: (idsOfHeads hs ++ body.nodeIds)) := by
      rw [List.cons_append, ← List.append_assoc]
      exact (List.subperm_cons _).mpr ((List.subperm_append_right _).mpr (idsOfHeads_subperm hs))
    refine .narrow ok sub fun ok => .bind ok (fun ok => template_compiles (owner_block block) ok
      (headInits_compiles within hs hheads inOrder parts.left) fun _ _ h => h.ok.inits.1)
      fun template s₁ ok₁ _ htemplate => ?_
    obtain ⟨table, rfl, suits⟩ := htemplate s₁.memory.Returns fun _ _ h => h
    refine .bind ok₁ (heads_compiles within hs hheads inOrder
      (suits.ok.furnished rooted.ready inOrder) parts.left)
      fun r s₂ ok₂ grows₂ hheads => ?_
    cases r with
    | error op =>
      exact .pure ok₂.toOk fun K known => .bare ((hheads K known).1 _) (hheads K known).2
    | ok hs' =>
      refine (expr_compiles within body hbody parts.right.head ok₂).last
        fun _ s₃ ok₃ grows₃ hop => ?_
      refine finish_compiles rooted ok₃ fun K known => ?_
      obtain ⟨_, same, suits'⟩ := (htemplate.grows grows₂).grows grows₃ K known
      have template := InitsOk.template ⟨_, same, suits'.imp HeadInitsOk.inits⟩
      refine .whole
        ((((template.pair ((hheads.grows grows₃ K known).pair (hop K known))).out block).imp
          fun ⟨template, heads, body⟩ => ⟨inner, ⟨σ, node.id, rfl, block.kind, block.enclosing⟩,
            template, heads.1, body, suits.ok.slotsInOrder rooted.ready, heads.2⟩).among ?_)
      exact List.append_subset.mpr ⟨List.subset_append_left .., List.Subset.refl _⟩
  | .binary _ _ l r, h, ordered, ok => by
    rw [expr]
    refine .tail ok fun ok => .bind ok (expr_compiles inside l h.1 ordered.children.head)
      fun _ s₁ ok₁ _ hl => ?_
    refine (expr_compiles inside r h.2 ordered.children.tail.head ok₁).last
      fun _ s₂ ok₂ grows₂ hr => ?_
    exact finish_compiles rooted ok₂ fun K known =>
      ((hl.grows grows₂ K known).pair (hr K known)).whole
  | .unary _ _ e, h, ordered, ok | .cast _ e _, h, ordered, ok | .isOf _ e _, h, ordered, ok
  | .throw _ e, h, ordered, ok => by
    rw [expr]
    refine .tail ok fun ok => (expr_compiles inside e h ordered.children.head ok).last
      fun _ s₁ ok₁ _ he => ?_
    exact finish_compiles rooted ok₁ fun K known => (he K known).whole
  | .access _ container keys, h, ordered, ok => by
    rw [expr]
    refine .tail ok fun ok => .bind ok (expr_compiles inside container h.1 ordered.children.head)
      fun _ s₁ ok₁ _ hc => ?_
    refine (exprs_compiles inside keys h.2 ordered.children.tail ok₁).last
      fun _ s₂ ok₂ grows₂ hk => ?_
    exact finish_compiles rooted ok₂ fun K known =>
      ((hc.grows grows₂ K known).pair (hk K known)).whole
  | .tryCatch _ body clause error trace handler, ⟨hbody, inner, block, fills, binds, hhandler⟩,
      ordered, ok => by
    rw [expr]
    simp only [block.created]
    refine .tail ok fun ok => .bind ok (expr_compiles inside body hbody ordered.children.head)
      fun _ s₁ ok₁ _ hb => ?_
    refine .narrow ok₁ ((List.sublist_append_right ..).cons_cons clause.id).subperm fun ok₁ =>
      .bind (l := [clause.id]) ok₁ (template_nil_compiles (owner_block block))
        fun template s₂ ok₂ grows₂ htemplate => ?_
    refine (expr_compiles (.block block.kind block.enclosing inside) handler hhandler
      ordered.children.tail.head ok₂).last fun _ s₃ ok₃ grows₃ hh => ?_
    refine finish_compiles rooted ok₃ fun K known =>
      .whole ((((hb.grows grows₂).grows grows₃ K known).pair
      (((htemplate.grows grows₃ K known).pair (hh K known)).out block)).imp
      fun ⟨body, template, handler⟩ => ⟨body, inner,
        ⟨σ, clause.id, rfl, block.kind, block.enclosing⟩, template, binds.receives rooted.ready ?_,
        binds.receives rooted.ready ?_, handler, .of_eq (fills.catch_slots rooted.ready)⟩)
    · rintro capture rfl
      exact List.mem_append_left _ (List.mem_singleton.mpr rfl)
    · rintro capture rfl
      exact List.mem_append_right _ (List.mem_singleton.mpr rfl)

theorem exprs_compiles {σ : ScopeId} {function : Option NodeId} {s : Compiling}
    (inside : c.analysis.arena.InFunction σ function) :
    ∀ es : List Expr, soundExprs c.analysis c.analysis.Reaches σ es → c.analysis.AllOrdered es →
      s.Awaits c.analysis (idsOfExprs es) →
      Compiles c.analysis (idsOfExprs es) s (c.exprs function es) fun ops K =>
        c.analysis.Suits σ es (opsOk c.analysis K (some σ) ops) (opsBelow · · ops)
  | [], _, _, ok => by
    rw [exprs]
    exact .always ok.toOk fun _ => .bare trivial fun _ _ => trivial
  | e :: rest, h, ordered, ok => by
    rw [exprs]
    refine .bind ok (expr_compiles inside e h.1 ordered.head) fun _ s₁ ok₁ _ he => ?_
    refine (exprs_compiles inside rest h.2 ordered.tail ok₁).last fun _ s₂ ok₂ grows₂ hrest => ?_
    exact .pure ok₂ fun K known => (he.grows grows₂ K known).pair (hrest K known)

theorem option_compiles {σ : ScopeId} {function : Option NodeId} {s : Compiling}
    (inside : c.analysis.arena.InFunction σ function) :
    ∀ e : Option Expr, soundOption c.analysis c.analysis.Reaches σ e →
      c.analysis.AllOrdered e.toList → s.Awaits c.analysis (idsOfOption e) →
      Compiles c.analysis (idsOfOption e) s (c.option function e) fun op K =>
        c.analysis.Suits σ e.toList (optionOk c.analysis K (some σ) op) (optionBelow · · op)
  | none, _, _, ok => by
    rw [option]
    exact .always ok.toOk fun _ => .bare trivial fun _ _ => trivial
  | some e, h, ordered, ok => by
    rw [option]
    exact (expr_compiles inside e h ordered.head ok).last fun _ s₁ ok₁ _ he => .pure ok₁ he

theorem items_compiles {σ : ScopeId} {function : Option NodeId} {s : Compiling}
    (inside : c.analysis.arena.InFunction σ function) :
    ∀ items : List ListItem, soundItems c.analysis c.analysis.Reaches σ items →
      c.analysis.AllOrdered (items.map (·.expr)) → s.Awaits c.analysis (idsOfItems items) →
      Compiles c.analysis (idsOfItems items) s (c.items function items) fun ops K =>
        c.analysis.Suits σ (items.map (·.expr)) (itemsOk c.analysis K (some σ) ops)
          (itemsBelow · · ops)
  | [], _, _, ok => by
    rw [items]
    exact .always ok.toOk fun _ => .bare trivial fun _ _ => trivial
  | .value e :: rest, h, ordered, ok | .splat e :: rest, h, ordered, ok => by
    rw [items]
    refine .bind ok (expr_compiles inside e h.1 ordered.head) fun _ s₁ ok₁ _ he => ?_
    refine (items_compiles inside rest h.2 ordered.tail ok₁).last fun _ s₂ ok₂ grows₂ hrest => ?_
    exact .pure ok₂ fun K known => (he.grows grows₂ K known).pair (hrest K known)

theorem entries_compiles {σ : ScopeId} {function : Option NodeId} {s : Compiling}
    (inside : c.analysis.arena.InFunction σ function) :
    ∀ entries : List DictEntry, soundEntries c.analysis c.analysis.Reaches σ entries →
      c.analysis.AllOrdered (entries.flatMap (·.exprs)) →
      s.Awaits c.analysis (idsOfEntries entries) →
        Compiles c.analysis (idsOfEntries entries) s (c.entries function entries) fun ops K =>
        c.analysis.Suits σ (entries.flatMap (·.exprs)) (entriesOk c.analysis K (some σ) ops)
          (entriesBelow · · ops)
  | [], _, _, ok => by
    rw [entries]
    exact .always ok.toOk fun _ => .bare trivial fun _ _ => trivial
  | .pair k v :: rest, h, ordered, ok => by
    rw [entries]
    refine .bind ok (expr_compiles inside k h.1 ordered.head) fun _ s₁ ok₁ _ hk => ?_
    refine .bind ok₁ (expr_compiles inside v h.2.1 ordered.tail.head) fun _ s₂ ok₂ grows₂ hv => ?_
    refine (entries_compiles inside rest h.2.2 ordered.tail.tail ok₂).last
      fun _ s₃ ok₃ grows₃ hrest => ?_
    exact .pure ok₃ fun K known => ((hk.grows grows₂).grows grows₃ K known).pair
      ((hv.grows grows₃ K known).pair (hrest K known))
  | .splat e :: rest, h, ordered, ok => by
    rw [entries]
    refine .bind ok (expr_compiles inside e h.1 ordered.head) fun _ s₁ ok₁ _ he => ?_
    refine (entries_compiles inside rest h.2 ordered.tail ok₁).last fun _ s₂ ok₂ grows₂ hrest => ?_
    exact .pure ok₂ fun K known => (he.grows grows₂ K known).pair (hrest K known)

theorem params_compiles {σ : ScopeId} {function : Option NodeId} {s : Compiling}
    (inside : c.analysis.arena.InFunction σ function) :
    ∀ ps : List CellScript.Param, soundDefaults c.analysis c.analysis.Reaches σ ps →
      c.analysis.AllOrdered (ps.filterMap (·.default)) → s.Awaits c.analysis (idsOfParams ps) →
      Compiles c.analysis (idsOfParams ps) s (c.params function ps) fun params K =>
        c.analysis.Suits σ (ps.filterMap (·.default))
          (paramsOk c.analysis K (some σ) params ∧ params.map (·.ty) = ps.map (·.ty))
          (paramsBelow · · params)
  | [], _, _, ok => by
    rw [params]
    exact .always ok.toOk fun _ => .bare ⟨trivial, rfl⟩ fun _ _ => trivial
  | ⟨node, name, ty, default⟩ :: rest, h, ordered, ok => by
    have parts : (⟨node, name, ty, default⟩ :: rest : List CellScript.Param).filterMap (·.default) =
        default.toList ++ rest.filterMap (·.default) := by
      cases default <;> rfl
    rw [parts] at ordered ⊢
    rw [params]
    refine .tail ok fun ok => .bind ok (option_compiles inside default h.1 ordered.left)
      fun _ s₁ ok₁ _ hd => ?_
    refine (params_compiles inside rest h.2 ordered.right ok₁).last fun _ s₂ ok₂ grows₂ hrest => ?_
    refine .pure ok₂ fun K known => ((hd.grows grows₂ K known).pair (hrest K known)).imp
      fun ⟨default, rest, types⟩ => ⟨⟨default, rest⟩, ?_⟩
    rw [List.map_cons, List.map_cons, types]

theorem arguments_compiles {σ : ScopeId} {function : Option NodeId} {s : Compiling}
    (inside : c.analysis.arena.InFunction σ function) :
    ∀ args : List CellScript.Argument, soundArguments c.analysis c.analysis.Reaches σ args →
      c.analysis.AllOrdered (args.map (·.expr)) → s.Awaits c.analysis (idsOfArguments args) →
      Compiles c.analysis (idsOfArguments args) s (c.arguments function args) fun ops K =>
        c.analysis.Suits σ (args.map (·.expr)) (argumentsOk c.analysis K (some σ) ops)
          (argumentsBelow · · ops)
  | [], _, _, ok => by
    rw [arguments]
    exact .always ok.toOk fun _ => .bare trivial fun _ _ => trivial
  | .positional e :: rest, h, ordered, ok | .named _ e :: rest, h, ordered, ok
  | .splat e :: rest, h, ordered, ok => by
    rw [arguments]
    refine .bind ok (expr_compiles inside e h.1 ordered.head) fun _ s₁ ok₁ _ he => ?_
    refine (arguments_compiles inside rest h.2 ordered.tail ok₁).last
      fun _ s₂ ok₂ grows₂ hrest => ?_
    exact .pure ok₂ fun K known => (he.grows grows₂ K known).pair (hrest K known)

theorem named_compiles {σ : ScopeId} {function : Option NodeId} {s : Compiling}
    (inside : c.analysis.arena.InFunction σ function) :
    ∀ args : List NamedExpr, soundNamed c.analysis c.analysis.Reaches σ args →
      c.analysis.AllOrdered (args.map (·.value)) → s.Awaits c.analysis (idsOfNamed args) →
      Compiles c.analysis (idsOfNamed args) s (c.named function args) fun ops K =>
        c.analysis.Suits σ (args.map (·.value)) (namedOk c.analysis K (some σ) ops)
          (namedBelow · · ops)
  | [], _, _, ok => by
    rw [named]
    exact .always ok.toOk fun _ => .bare trivial fun _ _ => trivial
  | ⟨_, e⟩ :: rest, h, ordered, ok => by
    rw [named]
    refine .bind ok (expr_compiles inside e h.1 ordered.head) fun _ s₁ ok₁ _ he => ?_
    refine (named_compiles inside rest h.2 ordered.tail ok₁).last fun _ s₂ ok₂ grows₂ hrest => ?_
    exact .pure ok₂ fun K known => (he.grows grows₂ K known).pair (hrest K known)

/-- The values of definitions stand in the scope of the definitions. -/
theorem inits_compiles {σ : ScopeId} {function : Option NodeId} {s : Compiling}
    (inside : c.analysis.arena.InFunction σ function) :
    ∀ vars : List VarDef, soundVars c.analysis c.analysis.Reaches σ vars →
      c.analysis.AllOrdered (vars.map (·.value)) → s.Awaits c.analysis (idsOfVars vars) →
      Compiles c.analysis (idsOfVars vars) s (c.inits function vars) fun table K =>
        c.analysis.Suits σ (vars.map (·.value))
          (InitsOk c.analysis σ (vars.map (·.node.id)) table K) (initsBelow · · table)
  | [], _, _, ok => by
    rw [inits]
    exact .always ok.toOk fun K => .bare (InitsOk.nil σ K) initsBelow_nil
  | ⟨node, _, _, value⟩ :: rest, h, ordered, ok => by
    rw [inits]
    refine .tail ok fun ok => ?_
    split
    · next none =>
      refine .narrow ok (List.sublist_append_right ..).subperm fun ok => ?_
      exact (inits_compiles inside rest h.2 ordered.tail ok).imp fun _ _ h =>
        (h.imp (·.undefined none)).among (List.subset_cons_self ..)
    · next symbol found =>
      refine .bind ok (expr_compiles inside value h.1 ordered.head) fun _ s₁ ok₁ _ he => ?_
      refine (inits_compiles inside rest h.2 ordered.tail ok₁).last fun _ s₂ ok₂ grows₂ hrest => ?_
      exact .pure ok₂ fun K known => (((he.grows grows₂ K known).pair (hrest K known)).imp
        fun ok => ok.2.insert ok.1 found).narrow fun _ _ => initsBelow_insert

/-- The values of definitions in a comprehension look at themselves and at earlier slots only. -/
theorem headInits_compiles {σ : ScopeId} {function : Option NodeId} {s : Compiling}
    (inside : c.analysis.arena.InFunction σ function) :
    ∀ {count : Nat} (hs : List ForHead), soundHeads c.analysis c.analysis.Reaches σ hs →
      c.analysis.HeadsOrdered σ count hs → c.analysis.AllOrdered (hs.map (·.expr)) →
      s.Awaits c.analysis (idsOfInits hs) →
      Compiles c.analysis (idsOfInits hs) s (c.headInits function hs) fun table K =>
        c.analysis.Suits σ (hs.map (·.expr)) (HeadInitsOk c.analysis σ (definitionNodes hs) table K)
          (initsBelow · · table)
  | _, [], _, _, _, ok => by
    rw [headInits]
    exact .always ok.toOk fun K => .bare
      ⟨InitsOk.nil σ K, fun _ _ found => (by cases found), fun _ _ found => by cases found⟩
        initsBelow_nil
  | _, .generator _ _ _ _ :: rest, h, inOrder, ordered, ok => by
    rw [headInits]
    exact (headInits_compiles inside rest h.2.2 inOrder.2.2 ordered.tail ok).imp fun _ _ h =>
      h.among (List.subset_cons_self ..)
  | _, .condition _ :: rest, h, inOrder, ordered, ok => by
    rw [headInits]
    exact (headInits_compiles inside rest h.2 inOrder.2 ordered.tail ok).imp fun _ _ h =>
      h.among (List.subset_cons_self ..)
  | count, .definition node _ _ value :: rest, h, ⟨slot, sees, inOrder⟩, ordered, ok => by
    rw [headInits]
    split
    · next none =>
      rw [Analysis.slotOf?, none] at slot
      cases slot
    · next symbol found =>
      rw [Analysis.slotOf?, found, Option.map_some, Option.some.injEq] at slot
      refine .bind ok (expr_compiles inside value h.2.1 ordered.head) fun _ s₁ ok₁ _ he => ?_
      refine (headInits_compiles inside rest h.2.2 inOrder ordered.tail ok₁).last
        fun _ s₂ ok₂ grows₂ hrest => ?_
      refine .pure ok₂ fun K known => ?_
      have value := he.grows grows₂ K known
      refine ((value.pair (hrest K known)).imp fun ok =>
        ⟨ok.2.inits.insert ok.1 found, ?_, ?_⟩).narrow
        fun _ _ => initsBelow_insert
      · intro id op there
        rw [Table.get?_insert] at there
        split at there
        · next same =>
          cases there
          rw [← same, slot]
          exact value.heeds.awaits sees
        · exact ok.2.awaits id op there
      · intro id op there
        rw [Table.get?_insert] at there
        split at there
        · next same => exact ⟨node.id, List.mem_cons_self .., same ▸ found⟩
        · obtain ⟨other, mem, defined⟩ := ok.2.only id op there
          exact ⟨other, List.mem_cons_of_mem _ mem, defined⟩

/-- Heads look at earlier slots only, one after the other. -/
theorem heads_compiles {σ : ScopeId} {function : Option NodeId} {s : Compiling}
    (inside : c.analysis.arena.InFunction σ function) {slots : List Slot} :
    ∀ {count : Nat} (hs : List ForHead), soundHeads c.analysis c.analysis.Reaches σ hs →
      c.analysis.HeadsOrdered σ count hs → Furnished c.analysis σ hs slots →
      c.analysis.AllOrdered (hs.map (·.expr)) → s.Awaits c.analysis (idsOfSources hs) →
      Compiles c.analysis (idsOfSources hs) s (c.heads function hs) fun r K =>
        OrFault c.analysis K (fun heads => c.analysis.Suits σ (hs.map (·.expr))
          (headsOk c.analysis K σ heads ∧ HeadsInOrder slots count heads) (headsBelow · · heads)) r
  | _, [], _, inOrder, furnished, _, ok => by
    rw [heads]
    exact .always ok.toOk fun _ => .bare ⟨trivial, inOrder.trans furnished.length.symm⟩
      fun _ _ => trivial
  | count, .generator node _ ty source :: rest, h, ⟨slot, sees, inOrder⟩, furnished,
      ordered, ok => by
    obtain ⟨_, found, slotOf⟩ := h.2.1.slotOf rooted.ready
    obtain rfl := Option.some.inj (found.symm.trans slot)
    rw [heads]
    simp only [found]
    refine .bind ok (expr_compiles inside source h.1 ordered.head) fun _ s₁ ok₁ _ he => ?_
    refine (heads_compiles inside rest h.2.2 inOrder furnished.tail ordered.tail ok₁).last
      fun _ s₂ ok₂ grows₂ hrest => ?_
    refine .pure ok₂ fun K known => (hrest K known).map fun _ h => ?_
    have source := he.grows grows₂ K known
    have bare := furnished.bare node.id (List.mem_cons_self ..) _ slot
    exact (source.pair h).imp fun ⟨ok, rest, inOrder⟩ =>
      ⟨⟨slotOf, ok, rest⟩, rfl, source.heeds.awaits sees, bare, inOrder⟩
  | count, .definition node _ ty _ :: rest, h, ⟨slot, _, inOrder⟩, furnished, ordered, ok => by
    obtain ⟨_, found, slotOf⟩ := h.1.slotOf rooted.ready
    obtain rfl := Option.some.inj (found.symm.trans slot)
    obtain ⟨t, defined, known, home, -⟩ := h.1
    have value := furnished.value node.id (List.mem_cons_self ..) t defined known home
    rw [Analysis.slotOf?, defined, Option.map_some, Option.some.injEq] at slot
    rw [slot] at value
    rw [heads]
    simp only [found]
    refine (heads_compiles inside rest h.2.2 inOrder furnished.tail ordered.tail ok).last
      fun _ s₁ ok₁ _ hrest => ?_
    refine .pure ok₁ fun K known => (hrest K known).map fun _ h => ?_
    exact (h.imp fun ⟨rest, inOrder⟩ => ⟨⟨⟨ty, slotOf⟩, rest⟩, rfl, value, inOrder⟩).among
      (List.subset_cons_self ..)
  | count, .condition e :: rest, h, ⟨sees, inOrder⟩, furnished, ordered, ok => by
    rw [heads]
    refine .bind ok (expr_compiles inside e h.1 ordered.head) fun _ s₁ ok₁ _ he => ?_
    refine (heads_compiles inside rest h.2 inOrder furnished.tail ordered.tail ok₁).last
      fun _ s₂ ok₂ grows₂ hrest => ?_
    refine .pure ok₂ fun K known => (hrest K known).map fun _ h => ?_
    have condition := he.grows grows₂ K known
    exact (condition.pair h).imp fun ⟨ok, rest, inOrder⟩ =>
      ⟨⟨ok, rest⟩, condition.heeds.awaits sees, inOrder⟩

theorem lines_compiles {σ : ScopeId} {function : Option NodeId} {s : Compiling}
    (inside : c.analysis.arena.InFunction σ function) :
    ∀ ls : List MatchLine, soundLines c.analysis c.analysis.Reaches σ ls →
      c.analysis.AllOrdered (ls.flatMap (·.exprs)) → s.Awaits c.analysis (idsOfLines ls) →
      Compiles c.analysis (idsOfLines ls) s (c.lines function ls) fun r K =>
        OrFault c.analysis K (fun lines => c.analysis.Suits σ (ls.flatMap (·.exprs))
          (linesOk c.analysis K (some σ) lines) (linesBelow · · lines)) r
  | [], _, _, ok => by
    rw [lines]
    exact .always ok.toOk fun _ => .bare trivial fun _ _ => trivial
  | ⟨node, p, guard, result⟩ :: rest, ⟨hp, ⟨inner, block, fills, binds, hguard, hresult⟩, h⟩,
      ordered, ok => by
    rw [lines]
    simp only [block.created]
    have within := Arena.InFunction.block block.kind block.enclosing inside
    have parts : c.analysis.AllOrdered ((p.expressions ++ guard.toList) ++ [result]) := ordered.left
    refine .narrow ok List.perm_middle.subperm fun ok => .bind ok
      (fun ok => (pattern_compiles inside p hp binds parts.left.left ok).result)
        fun _ s₁ ok₁ _ hp => ?_
    refine .bind (l := [node.id]) ok₁ (template_nil_compiles (owner_block block))
      fun _ s₂ ok₂ grows₂ ht => ?_
    refine .bind ok₂ (option_compiles within guard hguard parts.left.right)
      fun _ s₃ ok₃ grows₃ hg => ?_
    refine .bind ok₃ (expr_compiles within result hresult parts.right.head)
      fun _ s₄ ok₄ grows₄ hr => ?_
    refine (lines_compiles inside rest h ordered.right ok₄).last fun _ s₅ ok₅ grows₅ hrest => ?_
    refine .pure ok₅ fun K known => (hrest K known).map fun _ h => ?_
    have template := ht.grows ((grows₃.trans grows₄).trans grows₅) K known
    have pattern := (hp.grows (((grows₂.trans grows₃).trans grows₄).trans grows₅) K known).2
    have guard := hg.grows (grows₄.trans grows₅) K known
    refine (((pattern.pair ((template.pair (guard.pair (hr.grows grows₅ K known))).out block)).pair
      h).imp fun ⟨⟨pattern, template, guard, result⟩, rest⟩ => ⟨⟨inner,
        ⟨σ, node.id, rfl, block.kind, block.enclosing⟩, template, pattern, ?_, guard, result⟩,
        rest⟩).among ?_
    · rw [List.flatMap_cons, MatchLine.exprs, List.nil_append, ← List.append_assoc p.expressions]
      exact List.Subset.refl _
    · rw [(hp s₁.memory.Returns fun _ _ h => h).1]
      exact fills.pattern_slots rooted.ready c rfl function _

theorem pattern_compiles {σ inner : ScopeId} {function : Option NodeId} {s : Compiling}
    (inside : c.analysis.arena.InFunction σ function) :
    ∀ p : CellScript.Pattern, p.Sound c.analysis c.analysis.Reaches σ →
      c.analysis.Binds inner p.captures → c.analysis.AllOrdered p.expressions →
      s.Awaits c.analysis p.nodeIds →
      Compiles c.analysis p.nodeIds s (c.pattern function p) fun op K =>
        c.analysis.Suits σ p.expressions (op.Ok c.analysis K (some σ) inner) (op.Below · ·)
  | ⟨_, shape, whole⟩, h, binds, ordered, ok => by
    rw [pattern]
    rw [CellScript.Pattern.captures] at binds
    refine .tail ok fun ok => .narrow ok (List.sublist_append_left ..).subperm fun ok =>
      (shape_compiles inside shape h binds.left ordered ok).last fun _ s₁ ok₁ _ hs => ?_
    refine .pure ok₁ fun K known => (hs K known).imp fun ok => ⟨ok, binds.receives rooted.ready ?_⟩
    rintro capture rfl
    exact List.mem_append_right _ (List.mem_singleton.mpr rfl)

theorem shape_compiles {σ inner : ScopeId} {function : Option NodeId} {s : Compiling}
    (inside : c.analysis.arena.InFunction σ function) :
    ∀ p : PatternShape, p.Sound c.analysis c.analysis.Reaches σ →
      c.analysis.Binds inner p.captures → c.analysis.AllOrdered p.expressions →
      s.Awaits c.analysis p.nodeIds →
      Compiles c.analysis p.nodeIds s (c.shape function p) fun op K =>
        c.analysis.Suits σ p.expressions (op.Ok c.analysis K (some σ) inner) (op.Below · ·)
  | .expr e, h, _, ordered, ok => by
    rw [shape]
    exact (expr_compiles inside e h ordered.head ok).last fun _ s₁ ok₁ _ he => .pure ok₁ he
  | .wildcard, _, _, _, ok | .default, _, _, _, ok | .ofType _, _, _, _, ok => by
    rw [shape]
    exact .always ok.toOk fun _ => .bare trivial fun _ _ => trivial
  | .list ps, h, binds, ordered, ok => by
    rw [shape]
    exact (patterns_compiles inside ps h binds ordered ok).last fun _ s₁ ok₁ _ hp => .pure ok₁ hp
  | .headTail head tail, h, binds, ordered, ok => by
    rw [shape]
    refine .narrow ok (List.sublist_append_left ..).subperm fun ok =>
      (patterns_compiles inside head h binds.left ordered ok).last fun _ s₁ ok₁ _ hp => ?_
    refine .pure ok₁ fun K known => (hp K known).imp fun ok => ⟨ok, binds.receives rooted.ready ?_⟩
    rintro capture rfl
    exact List.mem_append_right _ (List.mem_singleton.mpr rfl)
  | .initLast init last, h, binds, ordered, ok => by
    rw [shape]
    refine .narrow ok (List.sublist_append_right ..).subperm fun ok =>
      (patterns_compiles inside last h binds.right ordered ok).last fun _ s₁ ok₁ _ hp => ?_
    refine .pure ok₁ fun K known => (hp K known).imp fun ok => ⟨binds.receives rooted.ready ?_, ok⟩
    rintro capture rfl
    exact List.mem_append_left _ (List.mem_singleton.mpr rfl)
  | .middle head mid last, h, binds, ordered, ok => by
    rw [shape]
    refine .bind ok (fun ok => patterns_compiles inside head h.1 binds.left.left ordered.left ok)
      fun _ s₁ ok₁ _ hh => ?_
    refine .narrow ok₁ (List.sublist_append_right ..).subperm fun ok₁ =>
      (patterns_compiles inside last h.2 binds.right ordered.right ok₁).last
        fun _ s₂ ok₂ grows₂ hl => ?_
    refine .pure ok₂ fun K known => ((hh.grows grows₂ K known).pair (hl K known)).imp
      fun ok => ⟨ok.1, binds.receives rooted.ready ?_, ok.2⟩
    rintro capture rfl
    exact List.mem_append_left _ (List.mem_append_right _ (List.mem_singleton.mpr rfl))
  | .dict entries, h, binds, ordered, ok => by
    rw [shape]
    exact (keyPatterns_compiles inside entries h binds ordered ok).last
      fun _ s₁ ok₁ _ hp => .pure ok₁ hp
  | .openDict entries rest, h, binds, ordered, ok => by
    rw [shape]
    refine .narrow ok (List.sublist_append_left ..).subperm fun ok =>
      (keyPatterns_compiles inside entries h binds.left ordered ok).last fun _ s₁ ok₁ _ hp => ?_
    refine .pure ok₁ fun K known => (hp K known).imp fun ok => ⟨ok, binds.receives rooted.ready ?_⟩
    rintro capture rfl
    exact List.mem_append_right _ (List.mem_singleton.mpr rfl)

theorem patterns_compiles {σ inner : ScopeId} {function : Option NodeId} {s : Compiling}
    (inside : c.analysis.arena.InFunction σ function) :
    ∀ ps : List CellScript.Pattern, soundPatterns c.analysis c.analysis.Reaches σ ps →
      c.analysis.Binds inner (capturesOfPatterns ps) →
      c.analysis.AllOrdered (expressionsOfPatterns ps) → s.Awaits c.analysis (idsOfPatterns ps) →
      Compiles c.analysis (idsOfPatterns ps) s (c.patterns function ps) fun ops K =>
        c.analysis.Suits σ (expressionsOfPatterns ps) (patternsOk c.analysis K (some σ) inner ops)
          (patternsBelow · · ops)
  | [], _, _, _, ok => by
    rw [patterns]
    exact .always ok.toOk fun _ => .bare trivial fun _ _ => trivial
  | p :: rest, h, binds, ordered, ok => by
    rw [patterns]
    refine .bind ok (fun ok => pattern_compiles inside p h.1 binds.left ordered.left ok)
      fun _ s₁ ok₁ _ hp => ?_
    refine (patterns_compiles inside rest h.2 binds.right ordered.right ok₁).last
      fun _ s₂ ok₂ grows₂ hrest => ?_
    exact .pure ok₂ fun K known => (hp.grows grows₂ K known).pair (hrest K known)

theorem keyPatterns_compiles {σ inner : ScopeId} {function : Option NodeId} {s : Compiling}
    (inside : c.analysis.arena.InFunction σ function) :
    ∀ entries : List CellScript.KeyPattern,
      soundKeyPatterns c.analysis c.analysis.Reaches σ entries →
      c.analysis.Binds inner (CellScript.capturesOfEntries entries) →
      c.analysis.AllOrdered (expressionsOfEntries entries) →
      s.Awaits c.analysis (idsOfKeyPatterns entries) →
      Compiles c.analysis (idsOfKeyPatterns entries) s (c.keyPatterns function entries) fun ops K =>
        c.analysis.Suits σ (expressionsOfEntries entries)
          (keyPatternsOk c.analysis K (some σ) inner ops) (keyPatternsBelow · · ops)
  | [], _, _, _, ok => by
    rw [keyPatterns]
    exact .always ok.toOk fun _ => .bare trivial fun _ _ => trivial
  | ⟨_, p⟩ :: rest, h, binds, ordered, ok => by
    rw [keyPatterns]
    refine .bind ok (fun ok => pattern_compiles inside p h.1 binds.left ordered.left ok)
      fun _ s₁ ok₁ _ hp => ?_
    refine (keyPatterns_compiles inside rest h.2 binds.right ordered.right ok₁).last
      fun _ s₂ ok₂ grows₂ hrest => ?_
    exact .pure ok₂ fun K known => (hp.grows grows₂ K known).pair (hrest K known)

end

end Walk

end Compiler

end CellScript
