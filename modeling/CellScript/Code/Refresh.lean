import CellScript.Code.Op

/-!
# Fresh copies of operations

A reference with a site remembers where it led. A fresh copy of an operation has other sites and so
remembers nothing. The layouts of calls and match lines hold no operations and stay as they are.
-/

namespace CellScript.Code

/-- The same reference at another site. -/
def CellRef.mapSite (f : SiteId → SiteId) (ref : CellRef) : CellRef :=
  { ref with site := ref.site.map f }

def CapturePlan.mapSite (f : SiteId → SiteId) : CapturePlan → CapturePlan
  | .propagate index => .propagate index
  | .cell ref => .cell (ref.mapSite f)

mutual

/-- Changes the sites of all references in an operation. -/
def Op.mapSites (f : SiteId → SiteId) : Op → Op
  | ⟨span, action⟩ => ⟨span, action.mapSites f⟩

def Action.mapSites (f : SiteId → SiteId) : Action → Action
  | .constant v => .constant v
  | .fail fault => .fail fault
  | .reference ref node => .reference (ref.mapSite f) node
  | .list items => .list (mapItems f items)
  | .patchedList segments => .patchedList (mapListSegments f segments)
  | .dict entries => .dict (mapEntries f entries)
  | .mergedDict segments => .mergedDict (mapDictSegments f segments)
  | .function params returns body template captures region =>
    .function (mapParams f params) returns (body.mapSites f) template
      (captures.map (CapturePlan.mapSite f)) region
  | .call callee args => .call (callee.mapSites f) (mapArguments f args)
  | .fixedCall id signature args => .fixedCall id signature (mapOps f args)
  | .curry callee args => .curry (callee.mapSites f) (mapNamed f args)
  | .letIn template body => .letIn (template.mapSites f) (body.mapSites f)
  | .ifElse c t e => .ifElse (c.mapSites f) (t.mapSites f) (e.mapSites f)
  | .matchOn subject lines => .matchOn (subject.mapSites f) (mapLines f lines)
  | .forEach template heads body =>
    .forEach (template.mapSites f) (mapHeads f heads) (body.mapSites f)
  | .binary op mode l r => .binary op mode (l.mapSites f) (r.mapSites f)
  | .unary op e => .unary op (e.mapSites f)
  | .cast e ty => .cast (e.mapSites f) ty
  | .isOf e ty => .isOf (e.mapSites f) ty
  | .access container keys => .access (container.mapSites f) (mapOps f keys)
  | .keyAccess container key => .keyAccess (container.mapSites f) key
  | .tryCatch body template error trace handler =>
    .tryCatch (body.mapSites f) (template.mapSites f) error trace (handler.mapSites f)
  | .throw e => .throw (e.mapSites f)

def mapOps (f : SiteId → SiteId) : List Op → List Op
  | [] => []
  | op :: rest => op.mapSites f :: mapOps f rest

def mapOption (f : SiteId → SiteId) : Option Op → Option Op
  | none => none
  | some op => some (op.mapSites f)

def mapItems (f : SiteId → SiteId) : List Item → List Item
  | [] => []
  | .value op :: rest => .value (op.mapSites f) :: mapItems f rest
  | .splat op :: rest => .splat (op.mapSites f) :: mapItems f rest

def mapListSegments (f : SiteId → SiteId) : List ListSegment → List ListSegment
  | [] => []
  | .constant run :: rest => .constant run :: mapListSegments f rest
  | .value op :: rest => .value (op.mapSites f) :: mapListSegments f rest
  | .splat op :: rest => .splat (op.mapSites f) :: mapListSegments f rest

def mapEntries (f : SiteId → SiteId) : List Entry → List Entry
  | [] => []
  | .pair k v :: rest => .pair (k.mapSites f) (v.mapSites f) :: mapEntries f rest
  | .splat op :: rest => .splat (op.mapSites f) :: mapEntries f rest

def mapDictSegments (f : SiteId → SiteId) : List DictSegment → List DictSegment
  | [] => []
  | .constant run :: rest => .constant run :: mapDictSegments f rest
  | .pair key v :: rest => .pair key (v.mapSites f) :: mapDictSegments f rest
  | .dynamic k v :: rest => .dynamic (k.mapSites f) (v.mapSites f) :: mapDictSegments f rest
  | .splat op :: rest => .splat (op.mapSites f) :: mapDictSegments f rest

def mapParams (f : SiteId → SiteId) : List Param → List Param
  | [] => []
  | ⟨name, ty, default⟩ :: rest => ⟨name, ty, mapOption f default⟩ :: mapParams f rest

def mapArguments (f : SiteId → SiteId) : List Argument → List Argument
  | [] => []
  | .positional op :: rest => .positional (op.mapSites f) :: mapArguments f rest
  | .named name op :: rest => .named name (op.mapSites f) :: mapArguments f rest
  | .splat op :: rest => .splat (op.mapSites f) :: mapArguments f rest

def mapNamed (f : SiteId → SiteId) : List Named → List Named
  | [] => []
  | ⟨name, op⟩ :: rest => ⟨name, op.mapSites f⟩ :: mapNamed f rest

def mapLines (f : SiteId → SiteId) : List Line → List Line
  | [] => []
  | ⟨pattern, template, guard, result⟩ :: rest =>
    ⟨pattern.mapSites f, template, mapOption f guard, result.mapSites f⟩ :: mapLines f rest

def mapHeads (f : SiteId → SiteId) : List Head → List Head
  | [] => []
  | .generator slot ty source :: rest => .generator slot ty (source.mapSites f) :: mapHeads f rest
  | .definition slot :: rest => .definition slot :: mapHeads f rest
  | .condition op :: rest => .condition (op.mapSites f) :: mapHeads f rest

def Pattern.mapSites (f : SiteId → SiteId) : Pattern → Pattern
  | ⟨shape, whole⟩ => ⟨shape.mapSites f, whole⟩

def Shape.mapSites (f : SiteId → SiteId) : Shape → Shape
  | .expr op => .expr (op.mapSites f)
  | .any => .any
  | .ofType ty => .ofType ty
  | .list items => .list (mapPatterns f items)
  | .headTail head tail => .headTail (mapPatterns f head) tail
  | .initLast init last => .initLast init (mapPatterns f last)
  | .middle head mid last => .middle (mapPatterns f head) mid (mapPatterns f last)
  | .dict entries => .dict (mapKeyPatterns f entries)
  | .openDict entries rest => .openDict (mapKeyPatterns f entries) rest

def mapPatterns (f : SiteId → SiteId) : List Pattern → List Pattern
  | [] => []
  | p :: rest => p.mapSites f :: mapPatterns f rest

def mapKeyPatterns (f : SiteId → SiteId) : List KeyPattern → List KeyPattern
  | [] => []
  | ⟨key, p⟩ :: rest => ⟨key, p.mapSites f⟩ :: mapKeyPatterns f rest

def mapSlots (f : SiteId → SiteId) : List Slot → List Slot
  | [] => []
  | ⟨symbol, name, ty, span, init, members⟩ :: rest =>
    ⟨symbol, name, ty, span, mapOption f init, members⟩ :: mapSlots f rest

/-- Changes the sites of all references in the values of the slots. -/
def Template.mapSites (f : SiteId → SiteId) : Template → Template
  | ⟨scope, slots⟩ => ⟨scope, mapSlots f slots⟩

end

end CellScript.Code
