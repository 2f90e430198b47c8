import CellScript.Proofs.Eval.Grows

/-!
# The first line that accepts

A match tries its lines in order. A line that does not accept the subject is passed over, and the
next one begins with a space of its own: what it finds there is what its pattern has captured, and
nothing that a line before it has captured. Once a line has accepted, no line behind it plays any
part.

* `Eval.bindSlots_eq_ok` — what a space holds once bindings are bound
* `Code.Line.enter` — trying one line
* `Code.Line.enter_eq_some` — the space in which a line goes on holds what its pattern captures
* `Code.PassedOver` — lines that do not accept the subject
* `Code.Action.eval_matchOn` — how a match ends
-/

namespace CellScript

open Eval

variable {s : Supply} {space clause : SpaceId} {M M' M'' : Machine}

/-! ## Bindings -/

/-- What a slot is bound to first. -/
def Bindings.value? (bindings : Bindings) (slot : Nat) : Option Value :=
  (bindings.find? fun binding => binding.1 == slot).map (·.2)

namespace Eval

/-- A slot that is there is bound. -/
theorem bindSlot_eq (cells : ∀ id v, s.bind id v = bindCell id v) {slot : Nat}
    (inside : slot < (M.memory.space clause).cells.size) (v : Value) :
    bindSlot s clause slot v M = .ok ⟨⟩ { M with memory := M.memory.bind ⟨clause, slot⟩ v } := by
  have found : M.memory.cellIn clause slot = .ok ⟨clause, slot⟩ :=
    (Memory.cellIn_eq_ok_iff ..).mpr ⟨inside, rfl⟩
  rw [bindSlot, bind_of_ok (ask_of_ok found), cells]
  rfl

/-- Only a slot that is there is bound. -/
theorem inside_of_bindSlot {slot : Nat} {v : Value} (h : bindSlot s clause slot v M = .ok ⟨⟩ M') :
    slot < (M.memory.space clause).cells.size := by
  obtain ⟨id, M₁, found, -⟩ := bind_eq_ok.mp h
  cases hc : M.memory.cellIn clause slot with
  | ok id => exact ((Memory.cellIn_eq_ok_iff ..).mp hc).1
  | error e =>
    have failed : ask (·.cellIn clause slot) M = .error (.raised e) M := by
      show ofExcept (M.memory.cellIn clause slot) M = _
      rw [hc]
      rfl
    rw [failed] at found
    cases found

/-- A cell that has a value keeps it, and another one takes the one that it is bound to. -/
theorem value_bind {m : Memory} {slot other : Nat} (known : clause < m.spaces.size)
    (inside : slot < (m.space clause).cells.size) (v : Value) :
    ((m.bind ⟨clause, slot⟩ v).cell ⟨clause, other⟩).value =
      if slot = other then (m.cell ⟨clause, other⟩).value.or (some v)
      else (m.cell ⟨clause, other⟩).value := by
  have has : m.HasCell ⟨clause, slot⟩ := ⟨known, inside⟩
  rw [Memory.bind, Memory.cell_modifyCell has]
  by_cases same : slot = other
  · rw [if_pos (by rw [same]), if_pos same, Cell.value_withValue, same]
  · rw [if_neg (fun h => same (congrArg CellId.slot h).symm), if_neg same]

theorem value?_cons (slot other : Nat) (v : Value) (rest : Bindings) :
    Bindings.value? ((slot, v) :: rest) other =
      if slot = other then some v else Bindings.value? rest other := by
  by_cases same : slot = other
  · simp [Bindings.value?, same]
  · simp [Bindings.value?, same]

/-- **Bindings are bound one after another.** A cell that had no value has the first one that it is
bound to. -/
theorem bindSlots_eq_ok (cells : ∀ id v, s.bind id v = bindCell id v) {bindings : Bindings}
    (known : clause < M.memory.spaces.size) (h : bindSlots s clause bindings M = .ok ⟨⟩ M') :
    M'.context = M.context ∧ ∀ slot, (M'.memory.cell ⟨clause, slot⟩).value =
      (M.memory.cell ⟨clause, slot⟩).value.or (bindings.value? slot) := by
  induction bindings generalizing M with
  | nil =>
    cases h
    exact ⟨rfl, fun slot => (Option.or_none ..).symm⟩
  | cons binding rest ih =>
    obtain ⟨slot, v⟩ := binding
    obtain ⟨_, M₁, first, later⟩ := bind_eq_ok.mp h
    change bindSlot s clause slot v M = _ at first
    have inside := inside_of_bindSlot first
    rw [bindSlot_eq cells inside] at first
    cases first
    obtain ⟨context, values⟩ :=
      ih (by rw [Memory.bind, Memory.size_spaces_modifyCell]; exact known) later
    refine ⟨context, fun other => ?_⟩
    rw [values, value_bind known inside, value?_cons]
    by_cases same : slot = other
    · rw [if_pos same, if_pos same]
      cases (M.memory.cell ⟨clause, other⟩).value <;> rfl
    · rw [if_neg same, if_neg same]

/-- Bindings of slots that are there are bound. -/
theorem bindSlots_runs (cells : ∀ id v, s.bind id v = bindCell id v) {bindings : Bindings}
    (inside : ∀ binding ∈ bindings, binding.1 < (M.memory.space clause).cells.size) :
    ∃ M', bindSlots s clause bindings M = .ok ⟨⟩ M' := by
  induction bindings generalizing M with
  | nil => exact ⟨M, rfl⟩
  | cons binding rest ih =>
    obtain ⟨first, later⟩ := List.forall_mem_cons.mp inside
    obtain ⟨M', run⟩ := ih (M := { M with memory := M.memory.bind ⟨clause, binding.1⟩ binding.2 })
      fun other mem => by
        rw [Memory.bind, Memory.size_cells_modifyCell]
        exact later other mem
    refine ⟨M', ?_⟩
    show (bindSlot s clause binding.1 binding.2 >>= fun _ => bindSlots s clause rest) M = _
    rw [bind_of_ok (bindSlot_eq cells first binding.2)]
    exact run

end Eval

/-! ## New blocks -/

/-- A block as it was laid out. -/
theorem Memory.space_child (m : Memory) (t : Code.Template) (space : SpaceId) :
    (m.child t space).2.space m.spaces.size = .ofTemplate t (some space)
      (m.space space).closure := by
  rw [child, space_newSpace, if_pos rfl]

/-- No cell of a new block has a value. -/
theorem Memory.value_child (m : Memory) (t : Code.Template) (space : SpaceId) (slot : Nat) :
    ((m.child t space).2.cell ⟨m.spaces.size, slot⟩).value = none := by
  rw [cell_eq, space_child]
  show (((t.slots.map Cell.ofSlot).toArray)[slot]?.getD default).value = none
  rw [List.getElem?_toArray, List.getElem?_map]
  cases t.slots[slot]? <;> rfl

namespace Code

variable {subject : Value} {lines before after : List Line} {line : Line}

/-! ## Trying one line -/

/-- The space of a line, if its guard accepts. Otherwise nobody holds the space any more. -/
def admitting (clause : SpaceId) (guard : Eval Bool) : Eval (Option SpaceId) := fun m =>
  match guard m with
  | .ok true m => .ok (some clause) m
  | .ok false m => .ok none (m.dropped clause)
  | .error stop m => .error stop (m.dropped clause)

theorem admitting_eq_some {guard : Eval Bool} {inner : SpaceId}
    (h : admitting clause guard M = .ok (some inner) M') :
    inner = clause ∧ guard M = .ok true M' := by
  unfold admitting at h
  cases hg : guard M with
  | ok holds M₁ =>
    rw [hg] at h
    cases holds <;> cases h
    exact ⟨rfl, rfl⟩
  | error stop M₁ =>
    rw [hg] at h
    cases h

/-- A step that is taken only where a guard accepts. -/
theorem holding_admitted (clause : SpaceId) (guard : Eval Bool) (x : SpaceId → Eval Value)
    (rest : Eval Value) :
    (do match ← holding clause (do if ← guard then return some (← x clause) else return none) with
      | some v => return v
      | none => rest) = (do
    match ← admitting clause guard with
      | some inner => holding inner (x inner)
      | none => rest) := by
  funext M
  cases hg : guard M with
  | error stop M₁ =>
    have left : holding clause (do if ← guard then return some (← x clause) else return none) M =
        .error stop (M₁.dropped clause) := holding_of_error (bind_of_error hg _) clause
    have right : admitting clause guard M = .error stop (M₁.dropped clause) := by rw [admitting, hg]
    rw [bind_of_error left, bind_of_error right]
  | ok holds M₁ =>
    cases holds with
    | false =>
      have left : holding clause (do if ← guard then return some (← x clause) else return none) M =
          .ok none (M₁.dropped clause) :=
        holding_of_ok (bind_of_ok hg fun holds =>
          if holds then return some (← x clause) else return none) clause
      have right : admitting clause guard M = .ok none (M₁.dropped clause) := by rw [admitting, hg]
      rw [bind_of_ok left, bind_of_ok right]
    | true =>
      have right : admitting clause guard M = .ok (some clause) M₁ := by rw [admitting, hg]
      rw [bind_of_ok right]
      cases hx : x clause M₁ with
      | ok v M₂ =>
        have left :
            holding clause (do if ← guard then return some (← x clause) else return none) M =
            .ok (some v) (M₂.dropped clause) :=
          holding_of_ok ((bind_of_ok hg _).trans (bind_of_ok hx _)) clause
        rw [bind_of_ok left]
        exact (holding_of_ok hx clause).symm
      | error stop M₂ =>
        have left :
            holding clause (do if ← guard then return some (← x clause) else return none) M =
            .error stop (M₂.dropped clause) :=
          holding_of_error ((bind_of_ok hg _).trans (bind_of_error hx _)) clause
        rw [bind_of_error left]
        exact (holding_of_error hx clause).symm

/-- Tries a line: the space in which it goes on, none if it does not accept the subject. -/
def Line.enter (s : Supply) (space : SpaceId) (subject : Value) (line : Line) :
    Eval (Option SpaceId) := do
  match ← line.pattern.captures s space subject with
  | none => return none
  | some bindings =>
    let clause ← create (·.child line.template space)
    admitting clause do
      bindSlots s clause bindings
      accepts s clause line.guard

/-- The first line that accepts gives the result, and nobody holds its space after that; the others
are tried only if it does not. -/
theorem evalLines_cons (line : Line) (rest : List Line) :
    evalLines s space subject (line :: rest) = (do
      match ← line.enter s space subject with
      | some clause => holding clause (line.result.eval s clause)
      | none => evalLines s space subject rest) := by
  obtain ⟨pattern, template, guard, result⟩ := line
  rw [evalLines, Line.enter, bind_assoc]
  refine congrArg _ (funext fun bindings => ?_)
  cases bindings with
  | none => rw [pure_bind]
  | some bindings =>
    rw [bind_assoc]
    refine (bind_assoc ..).trans (congrArg _ (funext fun clause => ?_))
    have admitted := holding_admitted clause
      (do bindSlots s clause bindings; accepts s clause guard)
      (fun inner => result.eval s inner) (evalLines s space subject rest)
    rw [bind_assoc] at admitted
    exact admitted

theorem evalLines_of_enter_some {rest : List Line}
    (h : line.enter s space subject M = .ok (some clause) M') :
    evalLines s space subject (line :: rest) M = holding clause (line.result.eval s clause) M' := by
  rw [evalLines_cons, bind_of_ok h]

theorem evalLines_of_enter_none {rest : List Line}
    (h : line.enter s space subject M = .ok none M') :
    evalLines s space subject (line :: rest) M = evalLines s space subject rest M' := by
  rw [evalLines_cons, bind_of_ok h]

theorem evalLines_of_enter_error {rest : List Line} {e : Stop}
    (h : line.enter s space subject M = .error e M') :
    evalLines s space subject (line :: rest) M = .error e M' := by
  rw [evalLines_cons, bind_of_error h]

/-- A line goes on in a space. When its guard is asked, the space has just been laid out inside the
one of the match, and its cells hold what the pattern has captured and nothing else. -/
structure Line.Enters (s : Supply) (space : SpaceId) (subject : Value) (line : Line) (M : Machine)
    (bindings : Bindings) (clause : SpaceId) (M' : Machine) : Prop where
  /-- The pattern has been matched, and the bindings have been bound in a new space. -/
  opens : ∃ M₁, line.pattern.captures s space subject M = .ok (some bindings) M₁ ∧
    clause = M₁.memory.spaces.size ∧
    bindSlots s clause bindings { M₁ with memory := (M₁.memory.child line.template space).2 } =
      .ok ⟨⟩ M'
  fresh : M.memory.spaces.size ≤ clause
  known : clause < M'.memory.spaces.size
  template : (M'.memory.space clause).template = line.template
  enclosing : (M'.memory.space clause).enclosing = some space
  /-- Of several bindings of a slot the first one counts. -/
  values : ∀ slot, (M'.memory.cell ⟨clause, slot⟩).value = bindings.value? slot

/-- **What a line finds in its space.** A line that accepts goes on in a new space that holds what
its own pattern has captured. Its guard is asked there, and has said yes; the captured values are
the same when the result is computed. -/
theorem Line.enter_eq_some (grows : s.Enlarges) (cells : ∀ id v, s.bind id v = bindCell id v)
    (h : line.enter s space subject M = .ok (some clause) M'') :
    ∃ bindings M', line.Enters s space subject M bindings clause M' ∧
      accepts s clause line.guard M' = .ok true M'' ∧
      ∀ slot v, bindings.value? slot = some v →
        (M''.memory.cell ⟨clause, slot⟩).value = some v := by
  obtain ⟨found, M₁, captured, h⟩ := bind_eq_ok.mp h
  cases found with
  | none => cases h
  | some bindings =>
    obtain ⟨block, M₂, created, h⟩ := bind_eq_ok.mp h
    cases created
    obtain ⟨rfl, ran⟩ := admitting_eq_some h
    obtain ⟨_, M₃, bound, accepted⟩ := bind_eq_ok.mp ran
    · have new : M₁.memory.spaces.size < (M₁.memory.child line.template space).2.spaces.size := by
        rw [Memory.child, Memory.size_spaces_newSpace]
        exact Nat.lt_succ_self _
      have grown := (grows.bindSlots _ bindings).of_ok bound
      have later := grown.space _ new
      have known := Nat.lt_of_lt_of_le new grown.spaces
      have values : ∀ slot, (M₃.memory.cell ⟨M₁.memory.spaces.size, slot⟩).value =
          bindings.value? slot := by
        intro slot
        rw [(bindSlots_eq_ok cells new bound).2 slot]
        show ((M₁.memory.child line.template space).2.cell _).value.or _ = _
        rw [Memory.value_child, Option.none_or]
      refine ⟨bindings, M₃, ⟨⟨M₁, captured, rfl, bound⟩, ?_, known, ?_, ?_, values⟩, accepted,
        fun slot v hv => ?_⟩
      · exact ((line.pattern.captures_enlarges grows subject space).of_ok captured).spaces
      · exact later.template.trans (congrArg Space.template (Memory.space_child ..))
      · exact later.enclosing.trans (congrArg Space.enclosing (Memory.space_child ..))
      · have kept := (accepts_enlarges grows line.guard _).of_ok accepted
        exact (kept.cell ⟨M₁.memory.spaces.size, slot⟩ known).value v ((values slot).trans hv)

/-! ## Lines that are passed over -/

/-- None of the lines accepts the subject. -/
inductive PassedOver (s : Supply) (space : SpaceId) (subject : Value) :
    List Line → Machine → Machine → Prop
  | nil {M : Machine} : PassedOver s space subject [] M M
  | cons {line : Line} {rest : List Line} {M M' M'' : Machine}
      (first : line.enter s space subject M = .ok none M')
      (later : PassedOver s space subject rest M' M'') :
      PassedOver s space subject (line :: rest) M M''

/-- Lines behind those that are passed over are tried next. -/
theorem PassedOver.evalLines (h : PassedOver s space subject before M M') (rest : List Line) :
    evalLines s space subject (before ++ rest) M = evalLines s space subject rest M' := by
  induction h with
  | nil => rfl
  | cons first _ ih => rw [List.cons_append, evalLines_of_enter_none first, ih]

/-- Either all lines are passed over, or there is a first one that is not. -/
theorem passedOver_or (lines : List Line) (M : Machine) :
    (∃ M', PassedOver s space subject lines M M') ∨
      ∃ before line after M', lines = before ++ line :: after ∧
        PassedOver s space subject before M M' ∧
          ∀ M'', line.enter s space subject M' ≠ .ok none M'' := by
  induction lines generalizing M with
  | nil => exact .inl ⟨M, .nil⟩
  | cons line rest ih =>
    by_cases declines : ∃ M₁, line.enter s space subject M = .ok none M₁
    · obtain ⟨M₁, first⟩ := declines
      rcases ih M₁ with ⟨M', all⟩ | ⟨before, next, after, M', rfl, passed, stays⟩
      · exact .inl ⟨M', .cons first all⟩
      · exact .inr ⟨line :: before, next, after, M', rfl, .cons first passed, stays⟩
    · exact .inr ⟨[], line, rest, M, rfl, .nil, fun M'' run => declines ⟨M'', run⟩⟩

/-! ## A whole match -/

theorem Op.eval_ofValue (fuel : Nat) (v : Value) :
    (Op.ofValue v).eval (.ofFuel fuel) space M = .ok v M := by
  cases fuel <;> rfl

theorem Action.eval_matchOn_of_ok {op : Op} {v : Value} (h : op.eval s space M = .ok v M')
    (lines : List Line) :
    (Action.matchOn op lines).eval s space M = evalLines s space v lines M' := by
  rw [Action.eval, bind_of_ok h]

/-- **The first line that accepts decides.** The subject is evaluated once: the match goes on as if
its value stood there. If a line accepts and those before it do not, then the match ends as the
match without the lines behind it, whatever they are, in the result of the line. That is computed in
a space of its own, which holds what the pattern of this line has captured, and so did its guard
find it; when the match is over, nobody holds this space any more. If no line accepts, the value is
nil. If nothing of that happens, then a line before the first one that accepts has failed, or the
subject has. -/
theorem Action.eval_matchOn (fuel : Nat) (space : SpaceId) (op : Op)
    (lines : List Line) (M : Machine) :
    (∀ e M', op.eval (.ofFuel fuel) space M = .error e M' →
      (Action.matchOn op lines).eval (.ofFuel fuel) space M = .error e M') ∧
    ∀ v M₁, op.eval (.ofFuel fuel) space M = .ok v M₁ →
      (Action.matchOn op lines).eval (.ofFuel fuel) space M =
        (Action.matchOn (.ofValue v) lines).eval (.ofFuel fuel) space M₁ ∧
      (∀ before line after M₂ clause M₄, lines = before ++ line :: after →
        PassedOver (.ofFuel fuel) space v before M₁ M₂ →
        line.enter (.ofFuel fuel) space v M₂ = .ok (some clause) M₄ →
          (Action.matchOn op lines).eval (.ofFuel fuel) space M =
            (Action.matchOn op (before ++ [line])).eval (.ofFuel fuel) space M ∧
          (Action.matchOn op lines).eval (.ofFuel fuel) space M =
            holding clause (line.result.eval (.ofFuel fuel) clause) M₄ ∧
          ∃ bindings M₃, line.Enters (.ofFuel fuel) space v M₂ bindings clause M₃ ∧
            accepts (.ofFuel fuel) clause line.guard M₃ = .ok true M₄ ∧
            ∀ slot w, bindings.value? slot = some w →
              (M₄.memory.cell ⟨clause, slot⟩).value = some w) ∧
      (∀ M₂, PassedOver (.ofFuel fuel) space v lines M₁ M₂ →
        (Action.matchOn op lines).eval (.ofFuel fuel) space M = .ok .nil M₂) ∧
      ((∃ M₂, PassedOver (.ofFuel fuel) space v lines M₁ M₂) ∨
        ∃ before line after M₂, lines = before ++ line :: after ∧
          PassedOver (.ofFuel fuel) space v before M₁ M₂ ∧
          ((∃ clause M₃, line.enter (.ofFuel fuel) space v M₂ = .ok (some clause) M₃) ∨
            ∃ e M₃, line.enter (.ofFuel fuel) space v M₂ = .error e M₃ ∧
              (Action.matchOn op lines).eval (.ofFuel fuel) space M = .error e M₃)) := by
  refine ⟨fun e M' failed => ?_, fun v M₁ once => ⟨?_, ?_, ?_, ?_⟩⟩
  · rw [Action.eval, bind_of_error failed]
  · rw [eval_matchOn_of_ok once, eval_matchOn_of_ok (Op.eval_ofValue fuel v)]
  · rintro before line after M₂ clause M₄ rfl passed entered
    have result : ∀ rest, evalLines (.ofFuel fuel) space v (before ++ line :: rest) M₁ =
        holding clause (line.result.eval (.ofFuel fuel) clause) M₄ := fun rest => by
      rw [passed.evalLines, evalLines_of_enter_some entered]
    refine ⟨?_, ?_, ?_⟩
    · rw [eval_matchOn_of_ok once, eval_matchOn_of_ok once, result, result]
    · rw [eval_matchOn_of_ok once, result]
    · exact Line.enter_eq_some (Supply.ofFuel_enlarges fuel)
        (fun id w => by cases fuel <;> rfl) entered
  · intro M₂ passed
    rw [eval_matchOn_of_ok once, ← List.append_nil lines, passed.evalLines]
    rfl
  · rcases passedOver_or lines M₁ with all | ⟨before, line, after, M₂, rfl, passed, stays⟩
    · exact .inl all
    · refine .inr ⟨before, line, after, M₂, rfl, passed, ?_⟩
      cases run : line.enter (.ofFuel fuel) space v M₂ with
      | ok found M₃ =>
        cases found with
        | none => exact absurd run (stays M₃)
        | some clause => exact .inl ⟨clause, M₃, rfl⟩
      | error e M₃ =>
        refine .inr ⟨e, M₃, rfl, ?_⟩
        rw [eval_matchOn_of_ok once, passed.evalLines, evalLines_of_enter_error run]

/-- Lines for a list of two numbers. The first one captures the first item and fails at the second
one, the second one captures the list and rejects it, the third one takes the list apart, and the
fourth one fails. -/
def triedLines : List Line × Line × Line :=
  let slots (n : Nat) : Template := ⟨0, List.replicate n default⟩
  let other : Line :=
    ⟨⟨.list [⟨.any, some 0⟩, ⟨.ofType .string, none⟩], none⟩, slots 1, none, .ofValue .nil⟩
  let rejected : Line := ⟨⟨.any, some 0⟩, slots 1, some (.ofValue (.boolean false)), .ofValue .nil⟩
  let taken : Line := ⟨⟨.headTail [⟨.any, some 0⟩] (some 1), none⟩, slots 2,
    some ⟨.null, .reference ⟨"", .own 0, .any, none⟩⟩, ⟨.null, .reference ⟨"", .own 1, .any, none⟩⟩⟩
  let failing : Line :=
    ⟨⟨.expr ⟨.null, .throw (.ofValue .nil)⟩, none⟩, slots 0, none, .ofValue .nil⟩
  ([other, rejected], taken, failing)

/-- The theorem at these lines: the match ends as without the last one, with the tail of the
list. -/
theorem Action.eval_matchOn_third :
    let (before, line, failing) := triedLines
    let subject : Op := .ofValue (.list 0 [.long 1, .long 2])
    let M : Machine := ⟨.initial, .detached⟩
    (∃ M₂ clause M₄, PassedOver (.ofFuel 3) 0 (.list 0 [.long 1, .long 2]) before M M₂ ∧
      line.enter (.ofFuel 3) 0 (.list 0 [.long 1, .long 2]) M₂ = .ok (some clause) M₄) ∧
    (Action.matchOn subject (before ++ line :: [failing])).eval (.ofFuel 3) 0 M =
      (Action.matchOn subject (before ++ [line])).eval (.ofFuel 3) 0 M ∧
    ∃ M', (Action.matchOn subject (before ++ line :: [failing])).eval (.ofFuel 3) 0 M =
      .ok (.list 0 [.long 2]) M' := by
  have passed :
      PassedOver (.ofFuel 3) 0 (.list 0 [.long 1, .long 2]) triedLines.1 ⟨.initial, .detached⟩ _ :=
    .cons rfl (.cons rfl .nil)
  have decided := (Action.eval_matchOn 3 0 (.ofValue (.list 0 [.long 1, .long 2]))
    (triedLines.1 ++ triedLines.2.1 :: [triedLines.2.2]) ⟨.initial, .detached⟩).2 _ _ rfl
  obtain ⟨same, -⟩ := decided.2.1 _ _ _ _ _ _ rfl passed rfl
  exact ⟨⟨_, _, _, passed, rfl⟩, same, _, rfl⟩

end Code

end CellScript
