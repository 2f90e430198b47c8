import CellScript.Proofs.Scope.Pass
import Mathlib.Data.List.Nodup

/-!
# What analysis knows about expressions

`Expr.Sound` says that the tables of an analysis describe an expression as it stands in a scope:
each function and block has its scope, inside the one where it stands, each declared name has its
symbol there, and of each reference a given fact holds.

* `Expr.Sound` — by recursion over the expression
* `Finished` — the state in which the first pass ends, and what analysis keeps of it
* `Build.Window` — a part of the pass, seen from its end, in which no two nodes are the same
-/

namespace CellScript

namespace Analysis

variable (a : Analysis)

/-- The node has created a block inside a scope. -/
structure BlockOf (node : NodeId) (σ inner : ScopeId) : Prop where
  created : a.createdScopes.get? node = some inner
  kind : (a.arena.scope inner).kind = .block node
  enclosing : (a.arena.scope inner).enclosing = some σ

/-- The node is a function that stands in a scope and takes parameters of these types. -/
structure FunctionOf (node : NodeId) (σ inner : ScopeId) (types : List Ty) : Prop where
  created : a.createdScopes.get? node = some inner
  standing : a.nodeScopes.get? node = some σ
  kind : (a.arena.scope inner).kind = .function node
  enclosing : (a.arena.scope inner).enclosing = some σ
  types : (a.arena.scope inner).slots.map (fun t => (a.arena.symbol t).ty) = types

/-- The node declares a variable of a type in a scope. -/
def Declares (node : NodeId) (σ : ScopeId) (ty : Ty) : Prop :=
  ∃ t, a.definitions.get? node = some t ∧ t < a.arena.symbols.size ∧ (a.arena.symbol t).scope = σ ∧
    (a.arena.symbol t).ty = ty

/-- The scope holds what is declared under the nodes, in their order, and nothing else. -/
def Fills (nodes : List NodeId) (σ : ScopeId) : Prop :=
  List.Forall₂ (fun node t => a.definitions.get? node = some t) nodes (a.arena.scope σ).slots

/-- All names that are captured are declared in a scope. -/
def Binds (σ : ScopeId) (captures : List Capture) : Prop :=
  ∀ c ∈ captures, a.Declares c.node.id σ .any

end Analysis

/-- The nodes under which the heads of a comprehension declare names. -/
def headNodes (heads : List ForHead) : List NodeId :=
  heads.filterMap fun
    | .generator node _ _ _ | .definition node _ _ _ => some node.id
    | .condition _ => none

section Sound

variable (a : Analysis) (R : ScopeId → NodeId → Prop)

mutual

/-- The tables describe the expression, which stands in a scope; `R` holds of its references. -/
def Expr.Sound (σ : ScopeId) : Expr → Prop
  | .constant _ _ => True
  | .reference node _ => R σ node.id
  | .list _ items => soundItems σ items
  | .dict _ entries => soundEntries σ entries
  | .function node params _ body =>
    soundDefaults σ params ∧
      ∃ inner, a.FunctionOf node.id σ inner (params.map (·.ty)) ∧ body.Sound inner
  | .call _ callee args => callee.Sound σ ∧ soundArguments σ args
  | .curry _ callee args => callee.Sound σ ∧ soundNamed σ args
  | .letIn node bindings body =>
    ∃ inner, a.BlockOf node.id σ inner ∧ a.Fills (bindings.map (·.node.id)) inner ∧
      soundVars inner bindings ∧ body.Sound inner
  | .ifElse _ c t e => c.Sound σ ∧ t.Sound σ ∧ e.Sound σ
  | .matchOn _ subject lines => subject.Sound σ ∧ soundLines σ lines
  | .forEach node heads body =>
    ∃ inner, a.BlockOf node.id σ inner ∧ a.Fills (headNodes heads) inner ∧
      soundHeads inner heads ∧ body.Sound inner
  | .binary _ _ l r => l.Sound σ ∧ r.Sound σ
  | .unary _ _ e => e.Sound σ
  | .cast _ e _ => e.Sound σ
  | .isOf _ e _ => e.Sound σ
  | .access _ c keys => c.Sound σ ∧ soundExprs σ keys
  | .tryCatch _ body clause error trace handler =>
    body.Sound σ ∧ ∃ inner, a.BlockOf clause.id σ inner ∧
      a.Fills ((error.toList ++ trace.toList).map (·.node.id)) inner ∧
      a.Binds inner (error.toList ++ trace.toList) ∧ handler.Sound inner
  | .throw _ e => e.Sound σ

def soundExprs (σ : ScopeId) : List Expr → Prop
  | [] => True
  | e :: rest => e.Sound σ ∧ soundExprs σ rest

def soundOption (σ : ScopeId) : Option Expr → Prop
  | none => True
  | some e => e.Sound σ

def soundItems (σ : ScopeId) : List ListItem → Prop
  | [] => True
  | .value e :: rest => e.Sound σ ∧ soundItems σ rest
  | .splat e :: rest => e.Sound σ ∧ soundItems σ rest

def soundEntries (σ : ScopeId) : List DictEntry → Prop
  | [] => True
  | .pair k v :: rest => k.Sound σ ∧ v.Sound σ ∧ soundEntries σ rest
  | .splat e :: rest => e.Sound σ ∧ soundEntries σ rest

def soundDefaults (σ : ScopeId) : List Param → Prop
  | [] => True
  | ⟨_, _, _, default⟩ :: rest => soundOption σ default ∧ soundDefaults σ rest

def soundArguments (σ : ScopeId) : List Argument → Prop
  | [] => True
  | .positional e :: rest => e.Sound σ ∧ soundArguments σ rest
  | .named _ e :: rest => e.Sound σ ∧ soundArguments σ rest
  | .splat e :: rest => e.Sound σ ∧ soundArguments σ rest

def soundNamed (σ : ScopeId) : List NamedExpr → Prop
  | [] => True
  | ⟨_, e⟩ :: rest => e.Sound σ ∧ soundNamed σ rest

/-- The values of definitions, which stand in the scope of the definitions. -/
def soundVars (σ : ScopeId) : List VarDef → Prop
  | [] => True
  | ⟨_, _, _, e⟩ :: rest => e.Sound σ ∧ soundVars σ rest

def soundLines (σ : ScopeId) : List MatchLine → Prop
  | [] => True
  | ⟨node, pattern, guard, result⟩ :: rest =>
    pattern.Sound σ ∧
      (∃ inner, a.BlockOf node.id σ inner ∧ a.Fills (pattern.captures.map (·.node.id)) inner ∧
        a.Binds inner pattern.captures ∧ soundOption inner guard ∧ result.Sound inner) ∧
      soundLines σ rest

def soundHeads (σ : ScopeId) : List ForHead → Prop
  | [] => True
  | .generator node _ ty source :: rest =>
    source.Sound σ ∧ a.Declares node.id σ ty ∧ soundHeads σ rest
  | .definition node _ ty e :: rest => a.Declares node.id σ ty ∧ e.Sound σ ∧ soundHeads σ rest
  | .condition e :: rest => e.Sound σ ∧ soundHeads σ rest

/-- The expressions of a pattern, which stand in the scope of the match. -/
def Pattern.Sound (σ : ScopeId) : Pattern → Prop
  | ⟨_, shape, _⟩ => shape.Sound σ

def PatternShape.Sound (σ : ScopeId) : PatternShape → Prop
  | .expr e => e.Sound σ
  | .wildcard => True
  | .default => True
  | .ofType _ => True
  | .list items => soundPatterns σ items
  | .headTail head _ => soundPatterns σ head
  | .initLast _ last => soundPatterns σ last
  | .middle head _ last => soundPatterns σ head ∧ soundPatterns σ last
  | .dict entries => soundKeyPatterns σ entries
  | .openDict entries _ => soundKeyPatterns σ entries

def soundPatterns (σ : ScopeId) : List Pattern → Prop
  | [] => True
  | p :: rest => p.Sound σ ∧ soundPatterns σ rest

def soundKeyPatterns (σ : ScopeId) : List KeyPattern → Prop
  | [] => True
  | ⟨_, p⟩ :: rest => p.Sound σ ∧ soundKeyPatterns σ rest

end

end Sound

/-! ## The state in which the first pass ends -/

/-- The analysis is finished from the state in which the first pass has ended: tables are kept, and
so is all that says what symbols and scopes are; `R` holds of every reference that waited alone. -/
structure Finished (b : Building) (a : Analysis) (R : ScopeId → NodeId → Prop) : Prop where
  kind : ∀ σ, (a.arena.scope σ).kind = (b.arena.scope σ).kind
  created : a.createdScopes = b.analysis.createdScopes
  nodeScopes : a.nodeScopes = b.analysis.nodeScopes
  definitions : a.definitions = b.analysis.definitions
  dynamic : ∀ σ, (b.arena.scope σ).kind.isDynamic = true → a.arena.scope σ = b.arena.scope σ
  size : a.arena.symbols.size = b.arena.symbols.size
  slots : ∀ σ, (a.arena.scope σ).slots = (b.arena.scope σ).slots
  symbol : ∀ t, (a.arena.symbol t).scope = (b.arena.symbol t).scope ∧
    (a.arena.symbol t).ty = (b.arena.symbol t).ty
  declared : ∀ t, (a.arena.symbol t).node = (b.arena.symbol t).node ∧
    (a.arena.symbol t).name = (b.arena.symbol t).name ∧
    (a.arena.symbol t).binding = (b.arena.symbol t).binding
  direct : ∀ t, (b.arena.symbol t).binding = .direct → a.arena.symbol t = b.arena.symbol t
  members : ∀ t, (a.arena.symbol t).members = (b.arena.symbol t).members
  units : a.units = b.analysis.units
  reference : ∀ p ∈ b.pending, (∀ q ∈ b.pending, q.node.id = p.node.id → q = p) →
    R p.scope p.node.id

namespace Build

variable {ids few more : List NodeId} {b b' c c' bf : Building} {a : Analysis}
  {R : ScopeId → NodeId → Prop}

theorem Steps.append (s : Steps few b c) (t : Steps more c b') : Steps (few ++ more) b b' :=
  (s.mono (List.subset_append_left ..)).trans (t.mono (List.subset_append_right ..))

/-- Without recovery, the nodes are visited once each between the two states and not touched before
or after, until the pass ends in the last state. -/
structure Window (ids : List NodeId) (b b' bf : Building) : Prop where
  nodup : ids.Nodup
  strict : b.recovery = false
  fresh : ∀ p ∈ b.pending, p.node.id ∉ ids
  undeclared : ∀ s, s < b.arena.symbols.size → (b.arena.symbol s).node.id ∉ ids
  later : ∃ more, Steps more b' bf ∧ ids.Disjoint more

namespace Window

/-- Some of the nodes, in any order. -/
theorem narrow (w : Window ids b b' bf) (h : ∀ id, few.count id ≤ ids.count id) :
    Window few b b' bf := by
  have sub : ∀ {id}, id ∈ few → id ∈ ids := by
    intro id hid
    rw [← List.count_pos_iff] at hid ⊢
    exact Nat.lt_of_lt_of_le hid (h id)
  obtain ⟨more, rest, apart⟩ := w.later
  refine ⟨?_, w.strict, fun p hp hmem => w.fresh p hp (sub hmem),
    fun s hs hmem => w.undeclared s hs (sub hmem), more, rest, fun id hid => apart (sub hid)⟩
  rw [List.nodup_iff_count]
  exact fun id => Nat.le_trans (h id) (List.nodup_iff_count.mp w.nodup id)

/-- The nodes are not visited before some time. -/
theorem skip (w : Window ids b b' bf) (first : Steps more b c) (before : ids.Disjoint more) :
    Window ids c b' bf := by
  refine ⟨w.nodup, first.recovery.trans w.strict, fun p hp hmem => ?_, fun s hs hmem => ?_, w.later⟩
  · rcases first.pending.2 hp with hp | hp
    · exact w.fresh p hp hmem
    · exact before hmem hp
  · rcases first.symbolNode hs with old | new
    · have same : (c.arena.symbol s).node = (b.arena.symbol s).node :=
        congrArg Declaration.node (first.sameSymbol old).2.declaration
      rw [same] at hmem
      exact w.undeclared s old hmem
    · exact before hmem new

/-- The nodes are not visited after some time. -/
theorem stop (w : Window ids b b' bf) (last : Steps more c b') (after : ids.Disjoint more) :
    Window ids b c bf := by
  obtain ⟨rest, steps, apart⟩ := w.later
  refine ⟨w.nodup, w.strict, w.fresh, w.undeclared, more ++ rest, last.append steps, ?_⟩
  rw [List.disjoint_append_right]
  exact ⟨after, apart⟩

/-- The nodes that are visited first; nodes further out may be visited again later. -/
theorem before {l : List NodeId} (w : Window (l ++ more) b b' bf) (outer : List NodeId)
    (out : l.Disjoint outer) (last : Steps (outer ++ more) c b') : Window l b c bf := by
  have apart := (List.nodup_append'.mp w.nodup).2.2
  refine (w.narrow fun id => ?_).stop last (List.disjoint_append_right.mpr ⟨out, apart⟩)
  rw [List.count_append]
  omega

/-- The nodes that are visited last; nodes further out may have been visited before. -/
theorem after {l : List NodeId} (w : Window (l ++ more) b b' bf) (outer : List NodeId)
    (out : more.Disjoint outer) (first : Steps (outer ++ l) b c) : Window more c b' bf := by
  have apart := (List.nodup_append'.mp w.nodup).2.2
  refine (w.narrow fun id => ?_).skip first
    (List.disjoint_append_right.mpr ⟨out, List.disjoint_comm.mp apart⟩)
  rw [List.count_append]
  omega

/-- The nodes that are visited first. -/
theorem left {l : List NodeId} (w : Window (l ++ more) b b' bf) (last : Steps more c b') :
    Window l b c bf :=
  w.before [] (List.disjoint_nil_right _) last

/-- The nodes that are visited last. -/
theorem right {l : List NodeId} (w : Window (l ++ more) b b' bf) (first : Steps l b c) :
    Window more c b' bf :=
  w.after [] (List.disjoint_nil_right _) first

/-- All nodes but the first. -/
theorem tail {node : NodeId} (w : Window (node :: ids) b b' bf) (first : Steps [node] b c) :
    Window ids c b' bf :=
  right (show Window ([node] ++ ids) b b' bf from w) first

/-- The first node alone, for as long as all of them. -/
theorem own {node : NodeId} (w : Window (node :: ids) b b' bf) : Window [node] b b' bf := by
  refine w.narrow fun id => ?_
  simp only [List.count_cons, List.count_nil]
  omega

/-- Nothing is entered under the nodes any more. -/
theorem entries (w : Window ids b b' bf) {node : NodeId} (h : node ∈ ids) :
    SameEntries b' bf node := by
  obtain ⟨more, rest, apart⟩ := w.later
  exact rest.sameEntries (apart h)

theorem steps (w : Window ids b b' bf) : ∃ more, Steps more b' bf :=
  let ⟨more, rest, _⟩ := w.later
  ⟨more, rest⟩

end Window

end Build

end CellScript
