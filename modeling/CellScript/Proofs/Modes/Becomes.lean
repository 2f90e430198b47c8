import CellScript.Proofs.Code.Foldable

/-!
# What operations become when they are completed

Specialising and folding change an operation from the inside out: first its parts, then the whole.
An operation that was folded stands for a constant, whose lists and dictionaries are created anew
where the operation is evaluated, and whose functions are those that folding has created.

* `Op.Becomes` — what may become of an operation whose parts are completed, and then itself
* `Op.Yields` — the constant that an operation stands for
* `Op.Becomes.retains`, `Op.Yields.retains` — both hold in all later memories
-/

namespace CellScript.Code

/-! ## Patterns that compare nothing -/

mutual

/-- The pattern has no expression in it. -/
def Pattern.Blind : Pattern → Prop
  | ⟨shape, _⟩ => shape.Blind

def Shape.Blind : Shape → Prop
  | .expr _ => False
  | .any | .ofType _ => True
  | .list items => BlindPatterns items
  | .headTail head _ => BlindPatterns head
  | .initLast _ last => BlindPatterns last
  | .middle head _ last => BlindPatterns head ∧ BlindPatterns last
  | .dict entries | .openDict entries _ => BlindKeyPatterns entries

def BlindPatterns : List Pattern → Prop
  | [] => True
  | p :: rest => p.Blind ∧ BlindPatterns rest

def BlindKeyPatterns : List KeyPattern → Prop
  | [] => True
  | ⟨_, p⟩ :: rest => p.Blind ∧ BlindKeyPatterns rest

end

/-- The operators that look at identities. -/
def equalities : List BinaryOp := [.equal, .notEqual, .identical, .notIdentical]

/-! ## The relation -/

section Relation

variable (m : Memory)

mutual

/-- What completion may make of an operation, with the functions of the memory. -/
inductive Op.Becomes : Op → Op → Prop
  | same (span : Span) {a b : Action} (h : Action.Becomes a b) : Op.Becomes ⟨span, a⟩ ⟨span, b⟩
  | specialized {op op' : Op} (h : Op.Becomes op op') : Op.Becomes op op'.specialize
  | folded {op : Op} {v : Value} (h : Op.Yields op v) (span : Span) :
      Op.Becomes op ⟨span, .constant v⟩

inductive Action.Becomes : Action → Action → Prop
  | constant {v : Value} (scalar : v.IsScalar) : Action.Becomes (.constant v) (.constant v)
  | fail (fault : Fault) : Action.Becomes (.fail fault) (.fail fault)
  | reference (ref : CellRef) (node : NodeId) :
      Action.Becomes (.reference ref node) (.reference ref node)
  | list {items items' : List Item} (h : ItemsBecome items items') :
      Action.Becomes (.list items) (.list items')
  | dict {entries entries' : List Entry} (h : EntriesBecome entries entries') :
      Action.Becomes (.dict entries) (.dict entries')
  | function {params params' : List Param} {body body' : Op} {t t' : Template}
      (h : ParamsBecome params params') (returns : Ty) (hBody : Op.Becomes body body')
      (hTemplate : Template.Becomes t t') (captures : List CapturePlan) (region : Span) :
      Action.Becomes (.function params returns body t captures region)
        (.function params' returns body' t' captures region)
  | call {callee callee' : Op} {args args' : List Argument} (h : Op.Becomes callee callee')
      (hArgs : ArgumentsBecome args args') :
      Action.Becomes (.call callee args) (.call callee' args')
  | curry {callee callee' : Op} {args args' : List Named} (h : Op.Becomes callee callee')
      (hArgs : NamedBecome args args') : Action.Becomes (.curry callee args) (.curry callee' args')
  | letIn {t t' : Template} {body body' : Op} (h : Template.Becomes t t')
      (hBody : Op.Becomes body body') : Action.Becomes (.letIn t body) (.letIn t' body')
  | ifElse {c c' t t' e e' : Op} (hc : Op.Becomes c c') (ht : Op.Becomes t t')
      (he : Op.Becomes e e') : Action.Becomes (.ifElse c t e) (.ifElse c' t' e')
  | matchOn {subject subject' : Op} {lines lines' : List Line} (h : Op.Becomes subject subject')
      (hLines : LinesBecome lines lines') :
      Action.Becomes (.matchOn subject lines) (.matchOn subject' lines')
  | forEach {t t' : Template} {heads heads' : List Head} {body body' : Op}
      (h : Template.Becomes t t') (hHeads : HeadsBecome heads heads')
      (hBody : Op.Becomes body body') :
      Action.Becomes (.forEach t heads body) (.forEach t' heads' body')
  | binary {op : BinaryOp} (blind : op ∉ equalities) (mode : NumericMode) {l l' r r' : Op}
      (hl : Op.Becomes l l') (hr : Op.Becomes r r') :
      Action.Becomes (.binary op mode l r) (.binary op mode l' r')
  | unary (op : UnaryOp) {e e' : Op} (h : Op.Becomes e e') :
      Action.Becomes (.unary op e) (.unary op e')
  | cast {e e' : Op} (h : Op.Becomes e e') (ty : Ty) : Action.Becomes (.cast e ty) (.cast e' ty)
  | isOf {e e' : Op} (h : Op.Becomes e e') (ty : Ty) : Action.Becomes (.isOf e ty) (.isOf e' ty)
  | access {c c' : Op} {keys keys' : List Op} (h : Op.Becomes c c') (hKeys : OpsBecome keys keys') :
      Action.Becomes (.access c keys) (.access c' keys')
  | tryCatch {body body' handler handler' : Op} {t t' : Template} (h : Op.Becomes body body')
      (hTemplate : Template.Becomes t t') (error trace : Option Nat)
      (hHandler : Op.Becomes handler handler') :
      Action.Becomes (.tryCatch body t error trace handler)
        (.tryCatch body' t' error trace handler')
  | throw {e e' : Op} (h : Op.Becomes e e') : Action.Becomes (.throw e) (.throw e')

inductive OpsBecome : List Op → List Op → Prop
  | nil : OpsBecome [] []
  | cons {op op' : Op} {rest rest' : List Op} (h : Op.Becomes op op')
      (later : OpsBecome rest rest') : OpsBecome (op :: rest) (op' :: rest')

inductive ItemsBecome : List Item → List Item → Prop
  | nil : ItemsBecome [] []
  | value {op op' : Op} {rest rest' : List Item} (h : Op.Becomes op op')
      (later : ItemsBecome rest rest') : ItemsBecome (.value op :: rest) (.value op' :: rest')
  | splat {op op' : Op} {rest rest' : List Item} (h : Op.Becomes op op')
      (later : ItemsBecome rest rest') : ItemsBecome (.splat op :: rest) (.splat op' :: rest')

inductive EntriesBecome : List Entry → List Entry → Prop
  | nil : EntriesBecome [] []
  | pair {k k' v v' : Op} {rest rest' : List Entry} (hk : Op.Becomes k k') (hv : Op.Becomes v v')
      (later : EntriesBecome rest rest') : EntriesBecome (.pair k v :: rest) (.pair k' v' :: rest')
  | splat {op op' : Op} {rest rest' : List Entry} (h : Op.Becomes op op')
      (later : EntriesBecome rest rest') : EntriesBecome (.splat op :: rest) (.splat op' :: rest')

inductive ParamsBecome : List Param → List Param → Prop
  | nil : ParamsBecome [] []
  | required (name : String) (ty : Ty) {rest rest' : List Param} (later : ParamsBecome rest rest') :
      ParamsBecome (⟨name, ty, none⟩ :: rest) (⟨name, ty, none⟩ :: rest')
  | optional (name : String) (ty : Ty) {op op' : Op} {rest rest' : List Param}
      (h : Op.Becomes op op') (later : ParamsBecome rest rest') :
      ParamsBecome (⟨name, ty, some op⟩ :: rest) (⟨name, ty, some op'⟩ :: rest')

inductive ArgumentsBecome : List Argument → List Argument → Prop
  | nil : ArgumentsBecome [] []
  | positional {op op' : Op} {rest rest' : List Argument} (h : Op.Becomes op op')
      (later : ArgumentsBecome rest rest') :
      ArgumentsBecome (.positional op :: rest) (.positional op' :: rest')
  | named (name : String) {op op' : Op} {rest rest' : List Argument} (h : Op.Becomes op op')
      (later : ArgumentsBecome rest rest') :
      ArgumentsBecome (.named name op :: rest) (.named name op' :: rest')
  | splat {op op' : Op} {rest rest' : List Argument} (h : Op.Becomes op op')
      (later : ArgumentsBecome rest rest') :
      ArgumentsBecome (.splat op :: rest) (.splat op' :: rest')

inductive NamedBecome : List Named → List Named → Prop
  | nil : NamedBecome [] []
  | cons (name : String) {op op' : Op} {rest rest' : List Named} (h : Op.Becomes op op')
      (later : NamedBecome rest rest') : NamedBecome (⟨name, op⟩ :: rest) (⟨name, op'⟩ :: rest')

inductive OptionBecomes : Option Op → Option Op → Prop
  | none : OptionBecomes none none
  | some {op op' : Op} (h : Op.Becomes op op') : OptionBecomes (some op) (some op')

inductive LinesBecome : List Line → List Line → Prop
  | nil : LinesBecome [] []
  | cons {p : Pattern} (blind : p.Blind) {t t' : Template} {guard guard' : Option Op}
      {result result' : Op} {rest rest' : List Line} (h : Template.Becomes t t')
      (hGuard : OptionBecomes guard guard') (hResult : Op.Becomes result result')
      (later : LinesBecome rest rest') :
      LinesBecome (⟨p, t, guard, result⟩ :: rest) (⟨p, t', guard', result'⟩ :: rest')

inductive HeadsBecome : List Head → List Head → Prop
  | nil : HeadsBecome [] []
  | generator (slot : Nat) (ty : Ty) {op op' : Op} {rest rest' : List Head} (h : Op.Becomes op op')
      (later : HeadsBecome rest rest') :
      HeadsBecome (.generator slot ty op :: rest) (.generator slot ty op' :: rest')
  | definition (slot : Nat) {rest rest' : List Head} (later : HeadsBecome rest rest') :
      HeadsBecome (.definition slot :: rest) (.definition slot :: rest')
  | condition {op op' : Op} {rest rest' : List Head} (h : Op.Becomes op op')
      (later : HeadsBecome rest rest') :
      HeadsBecome (.condition op :: rest) (.condition op' :: rest')

inductive Slot.Becomes : Slot → Slot → Prop
  | mk (symbol : SymbolId) (name : String) (ty : Ty) (span : Span) {init init' : Option Op}
      (h : OptionBecomes init init') (members : Option ScopeId) :
      Slot.Becomes ⟨symbol, name, ty, span, init, members⟩ ⟨symbol, name, ty, span, init', members⟩

inductive SlotsBecome : List Slot → List Slot → Prop
  | nil : SlotsBecome [] []
  | cons {s s' : Slot} {rest rest' : List Slot} (h : Slot.Becomes s s')
      (later : SlotsBecome rest rest') : SlotsBecome (s :: rest) (s' :: rest')

inductive Template.Becomes : Template → Template → Prop
  | mk (scope : ScopeId) {slots slots' : List Slot} (h : SlotsBecome slots slots') :
      Template.Becomes ⟨scope, slots⟩ ⟨scope, slots'⟩

/-- The constant that an operation stands for. Its functions are those of the memory. -/
inductive Op.Yields : Op → Value → Prop
  | mk (span : Span) {a : Action} {v : Value} (h : Action.Yields a v) : Op.Yields ⟨span, a⟩ v

inductive Action.Yields : Action → Value → Prop
  | constant {v : Value} (scalar : v.IsScalar) : Action.Yields (.constant v) v
  | list (i : ObjectId) {items : List Item} {vs : List Value} (h : ItemsYield items vs) :
      Action.Yields (.list items) (.list i vs)
  | dict (i : ObjectId) {entries : List Entry} {found : Entries Value}
      (h : EntriesYield [] entries found) : Action.Yields (.dict entries) (.dict i found)
  | function {params : List Param} {defaults : List Value} (h : ParamsYield params defaults)
      (returns : Ty) {body body' : Op} (hBody : Op.Becomes body body') {t t' : Template}
      (hTemplate : Template.Becomes t t') (region : Span) {g : FunctionId} {d : ClosureId}
      (created : g < m.functions.size ∧ d < m.closures.size) (empty : m.closure d = [])
      (found : m.function g = ⟨⟨params.map fun p => (p.ty, p.name), returns⟩, defaults,
        .literal body' t' d region⟩) :
      Action.Yields (.function params returns body t [] region)
        (.function g ⟨params.map fun p => (p.ty, p.name), returns⟩)
  | ifTrue {c t : Op} (e : Op) {u v : Value} (hc : Op.Yields c u) (truthy : u.truthy = true)
      (ht : Op.Yields t v) : Action.Yields (.ifElse c t e) v
  | ifFalse {c e : Op} (t : Op) {u v : Value} (hc : Op.Yields c u) (falsy : u.truthy = false)
      (he : Op.Yields e v) : Action.Yields (.ifElse c t e) v
  | andTrue (mode : NumericMode) {l r : Op} {u v : Value} (hl : Op.Yields l u)
      (truthy : u.truthy = true) (hr : Op.Yields r v) :
      Action.Yields (.binary .and mode l r) (.boolean v.truthy)
  | andFalse (mode : NumericMode) {l : Op} (r : Op) {u : Value} (hl : Op.Yields l u)
      (falsy : u.truthy = false) : Action.Yields (.binary .and mode l r) (.boolean false)
  | orTrue (mode : NumericMode) {l : Op} (r : Op) {u : Value} (hl : Op.Yields l u)
      (truthy : u.truthy = true) : Action.Yields (.binary .or mode l r) (.boolean true)
  | orFalse (mode : NumericMode) {l r : Op} {u v : Value} (hl : Op.Yields l u)
      (falsy : u.truthy = false) (hr : Op.Yields r v) :
      Action.Yields (.binary .or mode l r) (.boolean v.truthy)
  | binary {op : BinaryOp} (blind : op ∉ equalities) (both : op ≠ .and ∧ op ≠ .or)
      (mode : NumericMode) {l r : Op} {a b v : Value} (hl : Op.Yields l a) (hr : Op.Yields r b)
      (result : Value.binaryIn mode op a b = .ok v) : Action.Yields (.binary op mode l r) v
  | unary (op : UnaryOp) {e : Op} {u v : Value} (h : Op.Yields e u)
      (result : Value.unary op u = .ok v) : Action.Yields (.unary op e) v
  | cast {e : Op} (ty : Ty) (i : ObjectId) {u v : Value} (h : Op.Yields e u)
      (result : u.cast i ty = .ok v) : Action.Yields (.cast e ty) v
  | isOf {e : Op} (ty : Ty) {u : Value} (h : Op.Yields e u) :
      Action.Yields (.isOf e ty) (.boolean (u.isOf ty))

inductive ItemsYield : List Item → List Value → Prop
  | nil : ItemsYield [] []
  | value {op : Op} {v : Value} {rest : List Item} {vs : List Value} (h : Op.Yields op v)
      (later : ItemsYield rest vs) : ItemsYield (.value op :: rest) (v :: vs)
  | splat {op : Op} {v : Value} {rest : List Item} {us vs : List Value} (h : Op.Yields op v)
      (spread : v.spreadItems = .ok us) (later : ItemsYield rest vs) :
      ItemsYield (.splat op :: rest) (us ++ vs)

inductive EntriesYield : Entries Value → List Entry → Entries Value → Prop
  | nil (before : Entries Value) : EntriesYield before [] before
  | pair {before after : Entries Value} {k v : Op} {u w : Value} {key : String}
      {rest : List Entry} (hk : Op.Yields k u) (converted : u.toKey = .ok key) (hv : Op.Yields v w)
      (later : EntriesYield (before.insert key w) rest after) :
      EntriesYield before (.pair k v :: rest) after
  | splat {before more after : Entries Value} {op : Op} {u : Value} {rest : List Entry}
      (h : Op.Yields op u) (spread : u.spreadEntries = .ok more)
      (later : EntriesYield (before.merge more) rest after) :
      EntriesYield before (.splat op :: rest) after

inductive ParamsYield : List Param → List Value → Prop
  | nil : ParamsYield [] []
  | required (name : String) (ty : Ty) {rest : List Param} {vs : List Value}
      (later : ParamsYield rest vs) : ParamsYield (⟨name, ty, none⟩ :: rest) (.nil :: vs)
  | optional (name : String) (ty : Ty) {op : Op} {u v : Value} {rest : List Param}
      {vs : List Value} (i : ObjectId) (h : Op.Yields op u) (converted : u.cast i ty = .ok v)
      (later : ParamsYield rest vs) : ParamsYield (⟨name, ty, some op⟩ :: rest) (v :: vs)

end

end Relation

variable {m m' : Memory}

/-! ## Later memories -/

mutual

/-- What may become of an operation may still become of it later on. -/
theorem Op.Becomes.retains (later : m.Retains m') : ∀ {op op' : Op},
    Op.Becomes m op op' → Op.Becomes m' op op'
  | _, _, .same span h => .same span (h.retains later)
  | _, _, .specialized h => .specialized (h.retains later)
  | _, _, .folded h span => .folded (h.retains later) span

theorem Action.Becomes.retains (later : m.Retains m') : ∀ {a b : Action},
    Action.Becomes m a b → Action.Becomes m' a b
  | _, _, .constant scalar => .constant scalar
  | _, _, .fail fault => .fail fault
  | _, _, .reference ref node => .reference ref node
  | _, _, .list h => .list (h.retains later)
  | _, _, .dict h => .dict (h.retains later)
  | _, _, .function h returns hBody hTemplate captures region =>
    .function (h.retains later) returns (hBody.retains later) (hTemplate.retains later) captures
      region
  | _, _, .call h hArgs => .call (h.retains later) (hArgs.retains later)
  | _, _, .curry h hArgs => .curry (h.retains later) (hArgs.retains later)
  | _, _, .letIn h hBody => .letIn (h.retains later) (hBody.retains later)
  | _, _, .ifElse hc ht he => .ifElse (hc.retains later) (ht.retains later) (he.retains later)
  | _, _, .matchOn h hLines => .matchOn (h.retains later) (hLines.retains later)
  | _, _, .forEach h hHeads hBody =>
    .forEach (h.retains later) (hHeads.retains later) (hBody.retains later)
  | _, _, .binary blind mode hl hr => .binary blind mode (hl.retains later) (hr.retains later)
  | _, _, .unary op h => .unary op (h.retains later)
  | _, _, .cast h ty => .cast (h.retains later) ty
  | _, _, .isOf h ty => .isOf (h.retains later) ty
  | _, _, .access h hKeys => .access (h.retains later) (hKeys.retains later)
  | _, _, .tryCatch h hTemplate error trace hHandler =>
    .tryCatch (h.retains later) (hTemplate.retains later) error trace (hHandler.retains later)
  | _, _, .throw h => .throw (h.retains later)

theorem OpsBecome.retains (later : m.Retains m') : ∀ {ops ops' : List Op},
    OpsBecome m ops ops' → OpsBecome m' ops ops'
  | _, _, .nil => .nil
  | _, _, .cons h rest => .cons (h.retains later) (rest.retains later)

theorem ItemsBecome.retains (later : m.Retains m') : ∀ {items items' : List Item},
    ItemsBecome m items items' → ItemsBecome m' items items'
  | _, _, .nil => .nil
  | _, _, .value h rest => .value (h.retains later) (rest.retains later)
  | _, _, .splat h rest => .splat (h.retains later) (rest.retains later)

theorem EntriesBecome.retains (later : m.Retains m') : ∀ {entries entries' : List Entry},
    EntriesBecome m entries entries' → EntriesBecome m' entries entries'
  | _, _, .nil => .nil
  | _, _, .pair hk hv rest => .pair (hk.retains later) (hv.retains later) (rest.retains later)
  | _, _, .splat h rest => .splat (h.retains later) (rest.retains later)

theorem ParamsBecome.retains (later : m.Retains m') : ∀ {params params' : List Param},
    ParamsBecome m params params' → ParamsBecome m' params params'
  | _, _, .nil => .nil
  | _, _, .required name ty rest => .required name ty (rest.retains later)
  | _, _, .optional name ty h rest => .optional name ty (h.retains later) (rest.retains later)

theorem ArgumentsBecome.retains (later : m.Retains m') : ∀ {args args' : List Argument},
    ArgumentsBecome m args args' → ArgumentsBecome m' args args'
  | _, _, .nil => .nil
  | _, _, .positional h rest => .positional (h.retains later) (rest.retains later)
  | _, _, .named name h rest => .named name (h.retains later) (rest.retains later)
  | _, _, .splat h rest => .splat (h.retains later) (rest.retains later)

theorem NamedBecome.retains (later : m.Retains m') : ∀ {args args' : List Named},
    NamedBecome m args args' → NamedBecome m' args args'
  | _, _, .nil => .nil
  | _, _, .cons name h rest => .cons name (h.retains later) (rest.retains later)

theorem OptionBecomes.retains (later : m.Retains m') : ∀ {op op' : Option Op},
    OptionBecomes m op op' → OptionBecomes m' op op'
  | _, _, .none => .none
  | _, _, .some h => .some (h.retains later)

theorem LinesBecome.retains (later : m.Retains m') : ∀ {lines lines' : List Line},
    LinesBecome m lines lines' → LinesBecome m' lines lines'
  | _, _, .nil => .nil
  | _, _, .cons blind h hGuard hResult rest =>
    .cons blind (h.retains later) (hGuard.retains later) (hResult.retains later)
      (rest.retains later)

theorem HeadsBecome.retains (later : m.Retains m') : ∀ {heads heads' : List Head},
    HeadsBecome m heads heads' → HeadsBecome m' heads heads'
  | _, _, .nil => .nil
  | _, _, .generator slot ty h rest => .generator slot ty (h.retains later) (rest.retains later)
  | _, _, .definition slot rest => .definition slot (rest.retains later)
  | _, _, .condition h rest => .condition (h.retains later) (rest.retains later)

theorem Slot.Becomes.retains (later : m.Retains m') : ∀ {s s' : Slot},
    Slot.Becomes m s s' → Slot.Becomes m' s s'
  | _, _, .mk symbol name ty span h members => .mk symbol name ty span (h.retains later) members

theorem SlotsBecome.retains (later : m.Retains m') : ∀ {slots slots' : List Slot},
    SlotsBecome m slots slots' → SlotsBecome m' slots slots'
  | _, _, .nil => .nil
  | _, _, .cons h rest => .cons (h.retains later) (rest.retains later)

theorem Template.Becomes.retains (later : m.Retains m') : ∀ {t t' : Template},
    Template.Becomes m t t' → Template.Becomes m' t t'
  | _, _, .mk scope h => .mk scope (h.retains later)

/-- The constant for which an operation stands is the same later on. -/
theorem Op.Yields.retains (later : m.Retains m') : ∀ {op : Op} {v : Value},
    Op.Yields m op v → Op.Yields m' op v
  | _, _, .mk span h => .mk span (h.retains later)

theorem Action.Yields.retains (later : m.Retains m') : ∀ {a : Action} {v : Value},
    Action.Yields m a v → Action.Yields m' a v
  | _, _, .constant scalar => .constant scalar
  | _, _, .list i h => .list i (h.retains later)
  | _, _, .dict i h => .dict i (h.retains later)
  | _, _, .function h returns hBody hTemplate region created empty found =>
    .function (h.retains later) returns (hBody.retains later) (hTemplate.retains later) region
      ⟨Nat.lt_of_lt_of_le created.1 later.functions, Nat.lt_of_lt_of_le created.2 later.closures⟩
      (later.closure _ created.2 empty) ((later.function _ created.1).trans found)
  | _, _, .ifTrue e hc truthy ht => .ifTrue e (hc.retains later) truthy (ht.retains later)
  | _, _, .ifFalse t hc falsy he => .ifFalse t (hc.retains later) falsy (he.retains later)
  | _, _, .andTrue mode hl truthy hr => .andTrue mode (hl.retains later) truthy (hr.retains later)
  | _, _, .andFalse mode r hl falsy => .andFalse mode r (hl.retains later) falsy
  | _, _, .orTrue mode r hl truthy => .orTrue mode r (hl.retains later) truthy
  | _, _, .orFalse mode hl falsy hr => .orFalse mode (hl.retains later) falsy (hr.retains later)
  | _, _, .binary blind both mode hl hr result =>
    .binary blind both mode (hl.retains later) (hr.retains later) result
  | _, _, .unary op h result => .unary op (h.retains later) result
  | _, _, .cast ty i h result => .cast ty i (h.retains later) result
  | _, _, .isOf ty h => .isOf ty (h.retains later)

theorem ItemsYield.retains (later : m.Retains m') : ∀ {items : List Item} {vs : List Value},
    ItemsYield m items vs → ItemsYield m' items vs
  | _, _, .nil => .nil
  | _, _, .value h rest => .value (h.retains later) (rest.retains later)
  | _, _, .splat h spread rest => .splat (h.retains later) spread (rest.retains later)

theorem EntriesYield.retains (later : m.Retains m') :
    ∀ {before after : Entries Value} {entries : List Entry},
    EntriesYield m before entries after → EntriesYield m' before entries after
  | _, _, _, .nil before => .nil before
  | _, _, _, .pair hk converted hv rest =>
    .pair (hk.retains later) converted (hv.retains later) (rest.retains later)
  | _, _, _, .splat h spread rest => .splat (h.retains later) spread (rest.retains later)

theorem ParamsYield.retains (later : m.Retains m') : ∀ {params : List Param} {vs : List Value},
    ParamsYield m params vs → ParamsYield m' params vs
  | _, _, .nil => .nil
  | _, _, .required name ty rest => .required name ty (rest.retains later)
  | _, _, .optional name ty i h converted rest =>
    .optional name ty i (h.retains later) converted (rest.retains later)

end

/-! ## Slots -/

variable {s s' : Slot}

theorem Slot.Becomes.name (h : Slot.Becomes m s s') : s.name = s'.name := by
  cases h
  rfl

theorem Slot.Becomes.ty (h : Slot.Becomes m s s') : s.ty = s'.ty := by
  cases h
  rfl

theorem Slot.Becomes.span (h : Slot.Becomes m s s') : s.span = s'.span := by
  cases h
  rfl

theorem Slot.Becomes.symbol (h : Slot.Becomes m s s') : s.symbol = s'.symbol := by
  cases h
  rfl

theorem Slot.Becomes.members (h : Slot.Becomes m s s') : s.members = s'.members := by
  cases h
  rfl

theorem Slot.Becomes.init (h : Slot.Becomes m s s') : OptionBecomes m s.init s'.init := by
  cases h with
  | mk _ _ _ _ h _ => exact h

end CellScript.Code
