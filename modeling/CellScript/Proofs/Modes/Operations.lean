import CellScript.Proofs.Modes.References

/-!
# Operations in two sessions

An operation and what completion has made of it are evaluated side by side. Where a part was
specialised, it does what it did before; where it was folded, the first session evaluates the part
and the second has its constant.

* `Pattern.captures_follows` — patterns without expressions capture alike parts of alike subjects
* `Op.Becomes.follows` — evaluation gives alike values, or exceptions that follow each other
-/

namespace CellScript.Code

open Eval

variable {static : Memory} {L : Links}

/-! ## Patterns -/

section Patterns

variable (S T : Supply) (space : SpaceId)

/-- What patterns capture, if they match. -/
abbrev captures (L : Links) : Option Bindings → Option Bindings → Prop := Option.Rel (bindings L)

theorem matched_follows (holds : Bool) :
    captures L (matched holds) (matched holds) := by
  cases holds with
  | true => exact .some .nil
  | false => exact .none

/-- Items beyond a point. -/
theorem items_drop {xs ys : List Value} (h : L.items xs ys) (count : Nat) :
    L.items (xs.drop count) (ys.drop count) :=
  Value.alikeItems_of_forall₂ (List.forall₂_drop count h.forall₂)

theorem items_take {xs ys : List Value} (h : L.items xs ys) (count : Nat) :
    L.items (xs.take count) (ys.take count) :=
  Value.alikeItems_of_forall₂ (List.forall₂_take count h.forall₂)

theorem entries_filter {es fs : Entries Value} (h : L.entries es fs) (keep : String → Bool) :
    L.entries (es.filter fun entry => keep entry.1) (fs.filter fun entry => keep entry.1) := by
  induction es generalizing fs with
  | nil =>
    cases h
    exact .nil
  | cons entry es ih =>
    cases h with
    | cons key first rest =>
      rw [List.filter_cons, List.filter_cons]
      split
      · exact .cons key first (ih rest)
      · exact ih rest

theorem entries_length {es fs : Entries Value} (h : L.entries es fs) : es.length = fs.length := by
  induction es generalizing fs with
  | nil =>
    cases h
    rfl
  | cons entry es ih =>
    cases h with
    | cons key first rest => exact congrArg (· + 1) (ih rest)

mutual

/-- **Patterns without expressions capture alike parts of alike subjects.** -/
theorem Pattern.captures_follows : ∀ (p : Pattern) {v w : Value} {L : Links}, p.Blind →
    L.values v w →
    Eval.Follows static L captures (p.captures S space v) (p.captures T space w)
  | ⟨shape, whole⟩, v, w, L, blind, same => by
    rw [Pattern.captures, Pattern.captures]
    refine (shape.captures_follows blind same).bind fun L' x y le found => ?_
    cases found with
    | none => exact .pure .none
    | some found =>
      refine .pure (.some (List.rel_append found ?_))
      cases whole with
      | none => exact .nil
      | some slot => exact .cons ⟨rfl, same.links le⟩ .nil

theorem Shape.captures_follows : ∀ (s : Shape) {v w : Value} {L : Links}, s.Blind →
    L.values v w →
    Eval.Follows static L captures (s.captures S space v) (s.captures T space w)
  | .any, _, _, _, _, _ => .pure (.some .nil)
  | .ofType ty, v, w, L, _, same => by
    rw [Shape.captures, Shape.captures, matchesType, matchesType, same.isNil, same.ty]
    exact .pure (matched_follows _)
  | .list items, v, w, L, blind, same => by
    rcases same.list_cases with ⟨_, _, _, _, rfl, rfl, values⟩ | ⟨left, right⟩
    · rw [Shape.captures, Shape.captures]
      rw [values.length]
      split
      · exact capturesOfAll_follows items blind values
      · exact .pure .none
    · rw [Shape.captures, Shape.captures]
      · exact .pure .none
      · exact right
      · exact left
  | .headTail head tail, v, w, L, blind, same => by
    rcases same.list_cases with ⟨_, _, _, _, rfl, rfl, values⟩ | ⟨left, right⟩
    · rw [Shape.captures, Shape.captures]
      rw [values.length]
      split
      · exact .pure .none
      · refine (capturesOfAll_follows head blind values).bind fun L' x y le found => ?_
        cases found with
        | none => exact .pure .none
        | some found =>
          exact (bindList_follows tail (items_drop (values.mono le.identities) _)).bind
            fun _ _ _ le' rest => .pure (.some (List.rel_append (bindings_monotone le' found) rest))
    · rw [Shape.captures, Shape.captures]
      · exact .pure .none
      · exact right
      · exact left
  | .initLast init last, v, w, L, blind, same => by
    rcases same.list_cases with ⟨_, _, _, _, rfl, rfl, values⟩ | ⟨left, right⟩
    · rw [Shape.captures, Shape.captures]
      rw [values.length]
      split
      · exact .pure .none
      · refine (capturesOfAll_follows last blind (items_drop values _)).bind
          fun L' x y le found => ?_
        cases found with
        | none => exact .pure .none
        | some found =>
          exact (bindList_follows init (items_take (values.mono le.identities) _)).bind
            fun _ _ _ le' rest => .pure (.some (List.rel_append (bindings_monotone le' found) rest))
    · rw [Shape.captures, Shape.captures]
      · exact .pure .none
      · exact right
      · exact left
  | .middle head mid last, v, w, L, blind, same => by
    rcases same.list_cases with ⟨_, _, _, _, rfl, rfl, values⟩ | ⟨left, right⟩
    · rw [Shape.captures, Shape.captures]
      rw [values.length]
      split
      · exact .pure .none
      · refine (capturesOfAll_follows head blind.1 values).bind fun L' x y le found => ?_
        cases found with
        | none => exact .pure .none
        | some found =>
          simp only
          have others := items_drop (values.mono le.identities)
          refine (capturesOfAll_follows last blind.2 (others _)).bind fun L'' x y le' found' => ?_
          cases found' with
          | none => exact .pure .none
          | some found' =>
            refine (bindList_follows mid (items_drop
              (items_take (values.mono (le.trans le').identities) _) _)).bind
                fun _ _ _ le'' rest => .pure (.some ?_)
            exact List.rel_append (bindings_monotone le''
              (List.rel_append (bindings_monotone le' found) found')) rest
    · rw [Shape.captures, Shape.captures]
      · exact .pure .none
      · exact right
      · exact left
  | .dict entries, v, w, L, blind, same => by
    rcases same.dict_cases with ⟨_, _, _, _, rfl, rfl, found⟩ | ⟨left, right⟩
    · rw [Shape.captures, Shape.captures]
      rw [entries_length found]
      split
      · exact capturesOfEntries_follows entries blind found
      · exact .pure .none
    · rw [Shape.captures, Shape.captures]
      · exact .pure .none
      · exact right
      · exact left
  | .openDict entries rest, v, w, L, blind, same => by
    rcases same.dict_cases with ⟨_, _, _, _, rfl, rfl, found⟩ | ⟨left, right⟩
    · rw [Shape.captures, Shape.captures]
      refine (capturesOfEntries_follows entries blind found).bind fun L' x y le named => ?_
      cases named with
      | none => exact .pure .none
      | some named =>
        exact (bindDict_follows rest (entries_filter (found.mono le.identities)
          fun key => !entries.any fun named => named.key == key)).bind
            fun _ _ _ le' others =>
              .pure (.some (List.rel_append (bindings_monotone le' named) others))
    · rw [Shape.captures, Shape.captures]
      · exact .pure .none
      · exact right
      · exact left

theorem capturesOfAll_follows : ∀ (ps : List Pattern) {vs ws : List Value} {L : Links},
    BlindPatterns ps → L.items vs ws →
    Eval.Follows static L captures (capturesOfAll S space vs ps) (capturesOfAll T space ws ps)
  | [], _, _, _, _, _ => .pure (.some .nil)
  | p :: rest, _, _, L, blind, same => by
    cases same with
    | nil =>
      rw [capturesOfAll]
      exact .pure (.some .nil)
    | cons first others =>
      rw [capturesOfAll, capturesOfAll]
      refine (p.captures_follows blind.1 first).bind fun L' x y le found => ?_
      cases found with
      | none => exact .pure .none
      | some found =>
        simp only
        refine (capturesOfAll_follows rest blind.2 (others.mono le.identities)).bind
          fun L'' x y le' more => ?_
        cases more with
        | none => exact .pure .none
        | some more => exact .pure (.some (List.rel_append (bindings_monotone le' found) more))

theorem capturesOfEntries_follows : ∀ (ps : List KeyPattern) {es fs : Entries Value} {L : Links},
    BlindKeyPatterns ps → L.entries es fs →
    Eval.Follows static L captures (capturesOfEntries S space es ps)
      (capturesOfEntries T space fs ps)
  | [], _, _, _, _, _ => .pure (.some .nil)
  | ⟨key, p⟩ :: rest, es, fs, L, blind, same => by
    rw [capturesOfEntries, capturesOfEntries]
    have there := same.get? key
    generalize es.get? key = x at there
    generalize fs.get? key = y at there
    cases there with
    | none => exact .pure .none
    | some there =>
      simp only
      refine (p.captures_follows blind.1 there).bind fun L' x y le found => ?_
      cases found with
      | none => exact .pure .none
      | some found =>
        simp only
        refine (capturesOfEntries_follows rest blind.2 (same.mono le.identities)).bind
          fun L'' x y le' more => ?_
        cases more with
        | none => exact .pure .none
        | some more => exact .pure (.some (List.rel_append (bindings_monotone le' found) more))

end

end Patterns

/-! ## Operations -/

theorem Supply.eq_of_idle {S : Supply} (h : S.watch = .idle) : S = ⟨S.meet, .idle, S.bind⟩ := by
  cases S
  cases h
  rfl

/-- A block inside the same space. -/
theorem child_follows {t t' : Template} (h : Template.Becomes static t t') (space : SpaceId)
    (m n : Memory) (now : Memory.Follows static L m n) :
    (m.child t space).1 = (n.child t' space).1 ∧
      Memory.Follows static L (m.child t space).2 (n.child t' space).2 :=
  ⟨now.count, now.newSpace (.ofTemplate h _ (now.space space).closure)⟩

/-- Only functions can be called, and others are shown in the same way. -/
theorem function_cases {v w : Value} (h : L.values v w) :
    (∃ f g s, v = .function f s ∧ w = .function g s ∧ L.functions f g) ∨
      (∀ f s, v = .function f s → False) ∧ ∀ f s, w = .function f s → False := by
  cases h with
  | function s linked => exact .inl ⟨_, _, s, rfl, rfl, linked⟩
  | scalar scalar => exact .inr ⟨fun _ _ h => by subst h; exact scalar,
      fun _ _ h => by subst h; exact scalar⟩
  | list | dict => exact .inr ⟨nofun, nofun⟩

section Operations

variable {S T : Supply} (h : S.Follows static T)

include h

set_option linter.unusedSectionVars false

mutual

/-- **An operation that was completed does what the operation does.** -/
theorem Op.Becomes.follows : ∀ {op op' : Op} {L : Links} (space : SpaceId),
    Op.Becomes static op op' →
    Eval.Follows static L Links.values (op.eval S space) (op'.eval T space)
  | _, _, L, space, .same span becomes => by
    rw [Op.eval, Op.eval, h.left, h.right]
    exact (becomes.follows space).located span
  | _, _, L, space, @Op.Becomes.specialized _ _ op' becomes => by
    have unspecialized : op'.specialize.eval T space = op'.eval T space := by
      rw [Supply.eq_of_idle h.right]
      exact (op'.eval_specialize T.meet T.bind space).1
    rw [unspecialized]
    exact becomes.follows space
  | _, _, L, space, .folded found span => by
    -- The first side computes what the second has as a constant.
    rw [Op.eval, h.right, Supply.eq_of_idle h.left]
    exact found.ahead S.meet S.bind space

theorem Action.Becomes.follows : ∀ {a b : Action} {L : Links} (space : SpaceId),
    Action.Becomes static a b →
    Eval.Follows static L Links.values (a.eval S space) (b.eval T space)
  | _, _, L, space, .constant scalar => .pure (.scalar scalar)
  | _, _, L, space, .fail fault => .raise (.refl rfl)
  | _, _, L, space, .reference ref node => h.reference space ref
  | _, _, L, space, .list items => by
    rw [Action.eval, Action.eval]
    exact (items.follows space).bind fun _ _ _ _ same => newList_follows same
  | _, _, L, space, .dict entries => by
    rw [Action.eval, Action.eval]
    exact (entries.follows space .nil).bind fun _ _ _ _ same => newDict_follows same
  | _, _, L, space, .function params returns body template captures region => by
    rw [Action.eval, Action.eval, params.signature]
    refine (params.follows space).bind fun L₁ defaults defaults' _ same => ?_
    refine (Follows.mapM (R := fun _ => Eq) (S := fun L a b => Captured.Follows L a b)
      (fun _ _ _ same => same) (fun le _ _ c => c.links le)
      (fun L' plan plan' _ same => same ▸ h.capture space plan)
      (List.forall₂_same.mpr fun _ _ => rfl)).bind fun L₂ cs ds le captured => ?_
    refine (newClosure_follows captured).bind fun L₃ c d le' linked => ?_
    exact newFunction_follows ⟨rfl, same.mono (le.trans le').identities,
      .literal body template linked region⟩
  | _, _, L, space, .call callee args => by
    rw [Action.eval, Action.eval]
    refine (callee.follows space).bind fun L' v w le same => ?_
    rcases function_cases same with ⟨f, g, s, rfl, rfl, linked⟩ | ⟨left, right⟩
    · exact (args.follows space).bind fun L'' _ _ le' args =>
        h.callWith (le'.functions f g linked) args
    · split
      · exact absurd rfl (left _ _)
      · -- The message shows the value, and alike values are shown in the same way.
        exact .raise ⟨rfl, by rw [Exception.notCallable, same.text]; rfl, rfl, rfl, .none⟩
  | _, _, L, space, .curry callee args => by
    rw [Action.eval, Action.eval]
    refine (callee.follows space).bind fun L' v w le same => ?_
    rcases function_cases same with ⟨f, g, s, rfl, rfl, linked⟩ | ⟨left, right⟩
    · exact (args.follows space).bind fun L'' _ _ le' args =>
        curry_follows (le'.functions f g linked) args
    · split
      · exact absurd rfl (left _ _)
      · exact .raise ⟨rfl, by rw [Exception.notCurryable, same.text]; rfl, rfl, rfl, .none⟩
  | _, _, L, space, .letIn template body => by
    rw [Action.eval, Action.eval]
    exact .within (child_follows template space) fun block => body.follows block
  | _, _, L, space, .ifElse hc ht he => by
    rw [Action.eval, Action.eval]
    refine (hc.follows space).bind fun L' v w _ same => ?_
    rw [same.truthy]
    split
    · exact ht.follows space
    · exact he.follows space
  | _, _, L, space, .matchOn subject lines => by
    rw [Action.eval, Action.eval]
    exact (subject.follows space).bind fun _ _ _ _ same => lines.follows space same
  | _, _, L, space, .forEach template heads body => by
    rw [Action.eval, Action.eval]
    exact .within (child_follows template space) fun block =>
      (heads.follows block fun _ inner => body.follows inner).bind
        fun _ _ _ _ same => newList_follows same
  | .binary op _ _ _, _, L, space, .binary blind mode hl hr => by
    by_cases conj : op = .and
    · subst conj
      rw [Action.eval, Action.eval]
      refine (hl.follows space).bind fun L' v w _ same => ?_
      rw [same.truthy]
      split
      · exact (hr.follows space).bind fun _ _ _ _ same =>
          .pure (by rw [same.truthy]; exact .scalar trivial)
      · exact .pure (.scalar trivial)
    · by_cases disj : op = .or
      · subst disj
        rw [Action.eval, Action.eval]
        refine (hl.follows space).bind fun L' v w _ same => ?_
        rw [same.truthy]
        split
        · exact .pure (.scalar trivial)
        · exact (hr.follows space).bind fun _ _ _ _ same =>
            .pure (by rw [same.truthy]; exact .scalar trivial)
      · rw [Action.eval, Action.eval]
        · simp only [Value.binaryIn_eq]
          exact (hl.follows space).bind fun _ _ _ _ left => (hr.follows space).bind
            fun _ _ _ le right => .orderly (Value.binary_alike op
              (fun equal => absurd equal blind) (left.links le) right)
              (Value.binary_orderly op _ _)
        all_goals first
          | exact conj
          | exact disj
  | _, _, L, space, .unary op becomes => by
    rw [Action.eval, Action.eval]
    exact (becomes.follows space).bind fun _ v _ _ same =>
      .orderly (Value.unary_alike op same) (Value.unary_orderly op v)
  | _, _, L, space, .cast becomes ty => by
    rw [Action.eval, Action.eval]
    exact (becomes.follows space).bind fun _ _ _ _ same => cast_follows same ty
  | _, _, L, space, .isOf becomes ty => by
    rw [Action.eval, Action.eval]
    exact (becomes.follows space).bind fun _ _ _ _ same =>
      .pure (by rw [same.isOf]; exact .scalar trivial)
  | _, _, L, space, .access container keys => by
    rw [Action.eval, Action.eval]
    exact (container.follows space).bind fun _ v _ _ same => (keys.follows space).bind
      fun _ ks _ le keys => .orderly (Value.accessAll_alike keys (same.links le))
        (Value.accessAll_orderly v ks)
  | _, _, L, space, .tryCatch body template error trace handler => by
    rw [Action.eval, Action.eval]
    refine (body.follows space).attempt.bind fun L' x y _ outcome => ?_
    cases outcome with
    | ok same => exact .pure same
    | error same =>
      exact .within (child_follows template space) fun block =>
        (h.bindCaught error trace same block).bind fun _ _ _ _ _ => handler.follows block
  | _, _, L, space, .throw becomes => by
    rw [Action.eval, Action.eval]
    refine (becomes.follows space).bind fun L' v w _ same => .context fun c d now => ?_
    rw [Context.trace, Context.trace, now.stack]
    exact .raise ((Exception.Follows.ofThrown same).orTrace _)

theorem OpsBecome.follows : ∀ {ops ops' : List Op} {L : Links} (space : SpaceId),
    OpsBecome static ops ops' →
    Eval.Follows static L Links.items (evalOps S space ops) (evalOps T space ops')
  | _, _, L, space, .nil => .pure .nil
  | _, _, L, space, .cons first rest => by
    rw [evalOps, evalOps]
    exact (first.follows space).bind fun _ _ _ _ first => (rest.follows space).bind
      fun _ _ _ le rest => .pure (.cons (first.links le) rest)

theorem ItemsBecome.follows : ∀ {items items' : List Item} {L : Links} (space : SpaceId),
    ItemsBecome static items items' →
    Eval.Follows static L Links.items (evalItems S space items) (evalItems T space items')
  | _, _, L, space, .nil => .pure .nil
  | _, _, L, space, .value first rest => by
    rw [evalItems, evalItems]
    exact (first.follows space).bind fun _ _ _ _ first => (rest.follows space).bind
      fun _ _ _ le rest => .pure (.cons (first.links le) rest)
  | _, _, L, space, .splat first rest => by
    rw [evalItems, evalItems]
    refine (first.follows space).bind fun _ v _ _ same => ?_
    exact (Follows.orderly (R := Links.items) (Value.spreadItems_alike same)
      (Value.spreadItems_orderly v)).bind fun _ _ _ _ first => (rest.follows space).bind
        fun _ _ _ le rest => .pure ((first.mono le.identities).append rest)

theorem EntriesBecome.follows : ∀ {entries entries' : List Entry} {es fs : Entries Value}
    {L : Links} (space : SpaceId), L.entries es fs → EntriesBecome static entries entries' →
    Eval.Follows static L Links.entries (evalEntries S space es entries)
      (evalEntries T space fs entries')
  | _, _, _, _, L, space, same, .nil => .pure same
  | _, _, _, _, L, space, same, .pair hk hv rest => by
    rw [evalEntries, evalEntries]
    refine (hk.follows space).bind fun L₁ u u' le first => ?_
    rw [first.toKey]
    refine (Follows.orderly (R := fun _ => Eq) (.same (fun _ => rfl) _)
      (Value.toKey_orderly u')).bind fun L₂ key key' le' hkey => ?_
    subst hkey
    exact (hv.follows space).bind fun L₃ _ _ le'' value => rest.follows space
      ((same.mono ((le.trans le').trans le'').identities).insert key value)
  | _, _, _, _, L, space, same, .splat first rest => by
    rw [evalEntries, evalEntries]
    refine (first.follows space).bind fun L₁ u u' le first => ?_
    exact (Follows.orderly (R := Links.entries) (Value.spreadEntries_alike first)
      (Value.spreadEntries_orderly u)).bind fun L₂ _ _ le' more => rest.follows space
        ((same.mono (le.trans le').identities).merge more)

theorem ParamsBecome.follows : ∀ {params params' : List Param} {L : Links} (space : SpaceId),
    ParamsBecome static params params' →
    Eval.Follows static L Links.items (evalDefaults S space params)
      (evalDefaults T space params')
  | _, _, L, space, .nil => .pure .nil
  | _, _, L, space, .required name ty rest => by
    rw [evalDefaults, evalDefaults]
    exact (rest.follows space).bind fun _ _ _ _ rest => .pure (.cons (.scalar trivial) rest)
  | _, _, L, space, .optional name ty first rest => by
    rw [evalDefaults, evalDefaults]
    exact (first.follows space).bind fun _ _ _ _ same => (cast_follows same ty).bind
      fun _ _ _ _ first => (rest.follows space).bind
        fun _ _ _ le rest => .pure (.cons (first.links le) rest)

theorem ArgumentsBecome.follows : ∀ {args args' : List Argument} {L : Links} (space : SpaceId),
    ArgumentsBecome static args args' →
    Eval.Follows static L (fun L => List.Forall₂ (CallArgument.Follows L))
      (evalArguments S space args) (evalArguments T space args')
  | _, _, L, space, .nil => .pure .nil
  | _, _, L, space, .positional first rest => by
    rw [evalArguments, evalArguments]
    exact (first.follows space).bind fun _ _ _ _ first => (rest.follows space).bind
      fun _ _ _ le rest => .pure (.cons (.positional (first.links le)) rest)
  | _, _, L, space, .named name first rest => by
    rw [evalArguments, evalArguments]
    exact (first.follows space).bind fun _ _ _ _ first => (rest.follows space).bind
      fun _ _ _ le rest => .pure (.cons (.named name (first.links le)) rest)
  | _, _, L, space, .splat first rest => by
    rw [evalArguments, evalArguments]
    exact (first.follows space).bind fun _ _ _ _ first => (rest.follows space).bind
      fun _ _ _ le rest => .pure (.cons (.splat (first.links le)) rest)

theorem NamedBecome.follows : ∀ {args args' : List Named} {L : Links} (space : SpaceId),
    NamedBecome static args args' →
    Eval.Follows static L (fun L => List.Forall₂ L.keyed) (evalNamed S space args)
      (evalNamed T space args')
  | _, _, L, space, .nil => .pure .nil
  | _, _, L, space, .cons name first rest => by
    rw [evalNamed, evalNamed]
    exact (first.follows space).bind fun _ _ _ _ first => (rest.follows space).bind
      fun _ _ _ le rest => .pure (.cons ⟨rfl, first.links le⟩ rest)

theorem OptionBecomes.follows : ∀ {guard guard' : Option Op} {L : Links} (space : SpaceId),
    OptionBecomes static guard guard' →
    Eval.Follows static L (fun _ => Eq) (accepts S space guard) (accepts T space guard')
  | _, _, L, space, .none => .pure rfl
  | _, _, L, space, .some guard => by
    rw [accepts, accepts]
    exact (guard.follows space).bind fun _ _ _ _ same => .pure same.truthy

theorem LinesBecome.follows : ∀ {lines lines' : List Line} {v w : Value} {L : Links}
    (space : SpaceId), L.values v w → LinesBecome static lines lines' →
    Eval.Follows static L Links.values (evalLines S space v lines) (evalLines T space w lines')
  | _, _, _, _, L, space, same, .nil => .pure (.scalar trivial)
  | _, _, _, _, L, space, same, .cons (p := p) blind template guard result rest => by
    rw [evalLines, evalLines]
    refine (p.captures_follows S T space blind same).bind fun L₁ x y le found => ?_
    cases found with
    | none => exact rest.follows space (same.links le)
    | some found =>
      -- The line is left with a result, or without one if its guard refuses.
      refine Follows.bind (R := fun L => Option.Rel L.values)
        (.within (child_follows template space) fun clause =>
          (h.bindSlots clause found).bind fun L₂ _ _ _ _ =>
            (guard.follows clause).bind fun L₃ accepted accepted' _ same => ?_)
        fun L₂ x y le' value => ?_
      · subst same
        split
        · exact (result.follows clause).bind fun _ _ _ _ same => .pure (.some same)
        · exact .pure .none
      · cases value with
        | some value => exact .pure value
        | none => exact rest.follows space (same.links (le.trans le'))

theorem HeadsBecome.follows : ∀ {heads heads' : List Head} {body body' : SpaceId → Eval Value}
    {L : Links} (block : SpaceId),
    (∀ L space, Eval.Follows static L Links.values (body space) (body' space)) →
    HeadsBecome static heads heads' →
    Eval.Follows static L Links.items (runHeads S body block heads)
      (runHeads T body' block heads')
  | _, _, _, _, L, block, body, .nil => by
    rw [runHeads, runHeads]
    exact (body L block).bind fun _ _ _ _ same => .pure (.cons same .nil)
  | _, _, _, _, L, block, body, .generator slot ty source rest => by
    rw [runHeads, runHeads]
    refine (source.follows block).bind fun L₁ v w _ same => ?_
    refine (Follows.orderly (R := Links.items) (Value.generated_alike same)
      (Value.generated_orderly v)).bind fun L₂ xs ys _ items => ?_
    refine (Follows.mapM (R := Links.values) (S := Links.items) (fun le _ _ v => v.links le)
      (fun le _ _ vs => vs.mono le.identities) (fun L₃ x y _ same => ?_) items.forall₂).bind
        fun L₃ vss wss _ same => .pure ?_
    · refine .within (fun m n now => ⟨now.count, now.fork block⟩) fun iteration => ?_
      refine (cellIn_follows iteration slot).bind fun L₄ id id' le hid => ?_
      subst hid
      refine (cast_follows (same.links le) ty).bind fun L₅ v w _ same => ?_
      exact (h.bind _ id v w same).bind fun _ _ _ _ _ => rest.follows iteration body
    · induction same with
      | nil => exact .nil
      | cons first _ ih => exact first.append ih
  | _, _, _, _, L, block, body, .definition slot rest => by
    rw [runHeads, runHeads]
    refine (cellIn_follows block slot).bind fun L₁ id id' _ hid => ?_
    subst hid
    exact (h.force _ id).bind fun _ _ _ _ _ => rest.follows block body
  | _, _, _, _, L, block, body, .condition first rest => by
    rw [runHeads, runHeads]
    refine (first.follows block).bind fun L₁ v w _ same => ?_
    rw [same.truthy]
    split
    · exact rest.follows block body
    · exact .pure .nil

end

end Operations

end CellScript.Code
