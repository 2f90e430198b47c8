import CellScript.Eval.Demand
import CellScript.Eval.Lemmas
import CellScript.Proofs.Modes.Links

/-!
# Steps that follow each other

A step follows another one if, from machines that follow each other, both end in the same way, with
results that are related, and leave machines behind that follow each other. Meanwhile functions and
closures may have been created, so that more of them are linked.

* `Eval.Follows` — the second step follows the first
* `Eval.Follows.bind`, `Eval.Follows.attempt`, `Eval.Follows.within`, `Eval.Follows.mapM`, … — the
  rules that put such steps together
* `Eval.Follows.ahead` — the first step does something that the second does not
-/

namespace CellScript

open Code

variable {α β γ δ : Type}

/-- How something of the one session is related to something of the other, by their links. -/
abbrev Relation (α β : Type) := Links → α → β → Prop

/-- What is related stays related when more is linked. -/
def Relation.Monotone (R : Relation α β) : Prop :=
  ∀ {L L' : Links}, L.Le L' → ∀ {v : α} {w : β}, R L v w → R L' v w

theorem Links.keyed_monotone {κ : Type} : Relation.Monotone (Links.keyed (κ := κ)) :=
  fun le _ _ h => ⟨h.1, h.2.links le⟩

/-- Both steps have ended in the same way. -/
inductive Eval.Ends (static : Memory) (L : Links) (R : Relation α β) :
    EStateM.Result Stop Machine α → EStateM.Result Stop Machine β → Prop
  | ok {L' : Links} {v : α} {w : β} {M N : Machine} (le : L.Le L') (h : R L' v w)
      (now : Machine.Follows static L' M N) : Ends static L R (.ok v M) (.ok w N)
  | raised {L' : Links} {e e' : Exception} {M N : Machine} (le : L.Le L')
      (h : Exception.Follows L' e e') (now : Machine.Follows static L' M N) :
      Ends static L R (.error (.raised e) M) (.error (.raised e') N)
  | exhausted {L' : Links} {M N : Machine} (le : L.Le L') (now : Machine.Follows static L' M N) :
      Ends static L R (.error .exhausted M) (.error .exhausted N)

/-- From machines that follow each other, both steps end in the same way. -/
def Eval.Follows (static : Memory) (L : Links) (R : Relation α β) (x : Eval α) (y : Eval β) :
    Prop :=
  ∀ M N, Machine.Follows static L M N → Ends static L R (x M) (y N)

/-- The outcomes of an attempt: related results, or exceptions that follow each other. -/
inductive Eval.Outcomes (R : Relation α β) (L : Links) :
    Except Exception α → Except Exception β → Prop
  | ok {v : α} {w : β} (h : R L v w) : Outcomes R L (.ok v) (.ok w)
  | error {e e' : Exception} (h : Exception.Follows L e e') : Outcomes R L (.error e) (.error e')

/-! ## Exceptions -/

namespace Exception.Follows

variable {L : Links} {e e' : Exception}

/-- An exception that was not thrown by the program. -/
theorem refl {e : Exception} (h : e.thrown = Option.none) : Follows L e e :=
  ⟨rfl, rfl, rfl, rfl, h ▸ .none⟩

theorem orSpan (h : Follows L e e') (span : Span) : Follows L (e.orSpan span) (e'.orSpan span) := by
  rw [Exception.orSpan, Exception.orSpan, h.span]
  split
  · exact { h with span := rfl }
  · exact h

theorem orTrace (h : Follows L e e') (trace : List Frame) :
    Follows L (e.orTrace trace) (e'.orTrace trace) := by
  rw [Exception.orTrace, Exception.orTrace, h.trace]
  split
  · exact { h with trace := rfl }
  · exact h

end Exception.Follows

namespace Eval

variable {static : Memory} {L : Links} {R : Relation α β} {S : Relation γ δ}

theorem Ends.le {L' : Links} {r : EStateM.Result Stop Machine α} {s : EStateM.Result Stop Machine β}
    (le : L.Le L') (h : Ends static L' R r s) : Ends static L R r s := by
  cases h with
  | ok le' h now => exact .ok (le.trans le') h now
  | raised le' h now => exact .raised (le.trans le') h now
  | exhausted le' now => exact .exhausted (le.trans le') now

namespace Follows

/-! ## Rules -/

theorem pure {v : α} {w : β} (h : R L v w) : Follows static L R (Pure.pure v) (Pure.pure w) :=
  fun _ _ now => .ok (.refl L) h now

theorem raise {e e' : Exception} (h : Exception.Follows L e e') :
    Follows static L R (Eval.raise e) (Eval.raise e') :=
  fun _ _ now => .raised (.refl L) h now

theorem exhausted : Follows static L R (throw .exhausted) (throw .exhausted) :=
  fun _ _ now => .exhausted (.refl L) now

theorem imp {Q : Relation α β} {x : Eval α} {y : Eval β} (h : Follows static L R x y)
    (imp : ∀ L' v w, L.Le L' → R L' v w → Q L' v w) : Follows static L Q x y := by
  intro M N now
  have ends := h M N now
  generalize x M = r at ends ⊢
  generalize y N = s at ends ⊢
  cases ends with
  | ok le h now => exact .ok le (imp _ _ _ le h) now
  | raised le h now => exact .raised le h now
  | exhausted le now => exact .exhausted le now

theorem bind {x : Eval α} {y : Eval β} {f : α → Eval γ} {g : β → Eval δ}
    (first : Follows static L R x y)
    (second : ∀ L' v w, L.Le L' → R L' v w → Follows static L' S (f v) (g w)) :
    Follows static L S (x >>= f) (y >>= g) := by
  intro M N now
  have ends := first M N now
  generalize hr : x M = r at ends
  generalize hs : y N = s at ends
  cases ends with
  | ok le h now =>
    rw [bind_of_ok hr, bind_of_ok hs]
    exact (second _ _ _ le h _ _ now).le le
  | raised le h now =>
    rw [bind_of_error hr, bind_of_error hs]
    exact .raised le h now
  | exhausted le now =>
    rw [bind_of_error hr, bind_of_error hs]
    exact .exhausted le now

/-- The first step does something before, from which the second has the result already. -/
theorem ahead {x : Eval α} {w : β} {f : α → Eval γ} {y : Eval δ}
    (first : Follows static L R x (Pure.pure w))
    (second : ∀ L' v, L.Le L' → R L' v w → Follows static L' S (f v) y) :
    Follows static L S (x >>= f) y := by
  intro M N now
  have ends := first M N now
  generalize hr : x M = r at ends
  generalize hs : (Pure.pure w : Eval β) N = s at ends
  cases ends with
  | ok le h now =>
    cases hs
    rw [bind_of_ok hr]
    exact (second _ _ le h _ _ now).le le
  | raised le h now => cases hs
  | exhausted le now => cases hs

theorem ofExcept {x : Except Exception α} {y : Except Exception β} (h : BothEnd (R L) x y)
    (unthrown : ∀ e, x = .error e → e.thrown = none) :
    Follows static L R (Eval.ofExcept x) (Eval.ofExcept y) := by
  cases h with
  | ok h => exact pure h
  | error e => exact raise (.refl (unthrown e rfl))

/-- An outcome of the value library. -/
theorem orderly {x : Except Exception α} {y : Except Exception β} (h : BothEnd (R L) x y)
    (orderly : Orderly x) : Follows static L R (Eval.ofExcept x) (Eval.ofExcept y) :=
  ofExcept h fun e failed => (orderly e failed).2

/-! ## The machine -/

theorem memory {f : Memory → Eval α} {g : Memory → Eval β}
    (h : ∀ m n, Memory.Follows static L m n → Follows static L R (f m) (g n)) :
    Follows static L R (Eval.memory >>= f) (Eval.memory >>= g) :=
  fun M N now => h _ _ now.memory M N now

theorem context {f : Context → Eval α} {g : Context → Eval β}
    (h : ∀ c d, Context.Follows L c d → Follows static L R (f c) (g d)) :
    Follows static L R (Eval.context >>= f) (Eval.context >>= g) :=
  fun M N now => h _ _ now.context M N now

theorem ask {f g : Memory → Except Exception α}
    (same : ∀ m n, Memory.Follows static L m n → f m = g n)
    (unthrown : ∀ m e, f m = .error e → e.thrown = none) :
    Follows static L (fun _ => Eq) (Eval.ask f) (Eval.ask g) :=
  memory fun m n now => by
    rw [← same m n now]
    exact ofExcept (.same (fun _ => rfl) _) (unthrown m)

theorem modifyMemory {f g : Memory → Memory}
    (h : ∀ m n, Memory.Follows static L m n → Memory.Follows static L (f m) (g n)) :
    Follows static L (fun _ _ _ => True) (Eval.modifyMemory f) (Eval.modifyMemory g) :=
  fun _ _ now => .ok (.refl L) trivial ⟨h _ _ now.memory, now.context⟩

theorem modifyContext {f g : Context → Context}
    (h : ∀ c d, Context.Follows L c d → Context.Follows L (f c) (g d)) :
    Follows static L (fun _ _ _ => True) (Eval.modifyContext f) (Eval.modifyContext g) :=
  fun _ _ now => .ok (.refl L) trivial ⟨now.memory, h _ _ now.context⟩

theorem create {f : Memory → α × Memory} {g : Memory → β × Memory}
    (h : ∀ m n, Memory.Follows static L m n → ∃ L', L.Le L' ∧ R L' (f m).1 (g n).1 ∧
      Memory.Follows static L' (f m).2 (g n).2) :
    Follows static L R (Eval.create f) (Eval.create g) := by
  intro M N now
  obtain ⟨L', le, same, follows⟩ := h _ _ now.memory
  exact .ok le same ⟨follows, now.context.links le⟩

/-! ## Exceptions on their way out -/

theorem located {x : Eval α} {y : Eval β} (h : Follows static L R x y) (span : Span) :
    Follows static L R (Eval.located span x) (Eval.located span y) := by
  intro M N now
  have ends := h M N now
  generalize hr : x M = r at ends
  generalize hs : y N = s at ends
  cases ends with
  | ok le h now =>
    rw [located_of_ok hr, located_of_ok hs]
    exact .ok le h now
  | raised le h now =>
    rw [located_of_raised hr, located_of_raised hs]
    exact .raised le (h.orSpan span) now
  | exhausted le now =>
    rw [located_of_exhausted hr, located_of_exhausted hs]
    exact .exhausted le now

theorem attempt {x : Eval α} {y : Eval β} (h : Follows static L R x y) :
    Follows static L (Outcomes R) (Eval.attempt x) (Eval.attempt y) := by
  intro M N now
  have ends := h M N now
  generalize hr : x M = r at ends
  generalize hs : y N = s at ends
  cases ends with
  | ok le h now =>
    rw [attempt_of_ok hr, attempt_of_ok hs]
    exact .ok le (.ok h) now
  | raised le h now =>
    rw [attempt_of_raised hr, attempt_of_raised hs]
    exact .ok le (.error h) now
  | exhausted le now =>
    rw [attempt_of_exhausted hr, attempt_of_exhausted hs]
    exact .exhausted le now

theorem inFrame {x : Eval α} {y : Eval β} (h : Follows static L R x y) (frame : Frame) :
    Follows static L R (Eval.inFrame frame x) (Eval.inFrame frame y) := by
  intro M N now
  have pushed : Machine.Follows static L { M with context := M.context.push frame }
      { N with context := N.context.push frame } :=
    ⟨now.memory, { now.context with stack := congrArg (frame :: ·) now.context.stack }⟩
  have popped : ∀ {L' : Links} {M N : Machine}, Machine.Follows static L' M N →
      Machine.Follows static L' { M with context := M.context.pop }
        { N with context := N.context.pop } := fun now =>
    ⟨now.memory, { now.context with stack := congrArg List.tail now.context.stack }⟩
  have ends := h _ _ pushed
  generalize hr : x _ = r at ends
  generalize hs : y _ = s at ends
  cases ends with
  | ok le h now =>
    rw [inFrame_of_ok hr, inFrame_of_ok hs]
    exact .ok le h (popped now)
  | raised le h now =>
    -- An exception without a trace gets that of the stack, which is the same on both sides.
    rw [inFrame_of_raised hr, inFrame_of_raised hs, Context.trace, Context.trace,
      now.context.stack]
    exact .raised le (h.orTrace _) (popped now)
  | exhausted le now =>
    rw [inFrame_of_exhausted hr, inFrame_of_exhausted hs]
    exact .exhausted le (popped now)

/-! ## What is held while a step runs -/

theorem within {f g : Memory → SpaceId × Memory} {x : SpaceId → Eval α} {y : SpaceId → Eval β}
    (create : ∀ m n, Memory.Follows static L m n →
      (f m).1 = (g n).1 ∧ Memory.Follows static L (f m).2 (g n).2)
    (h : ∀ space, Follows static L R (x space) (y space)) :
    Follows static L R (Eval.within f x) (Eval.within g y) := by
  intro M N now
  obtain ⟨same, follows⟩ := create _ _ now.memory
  rw [within_apply, within_apply, ← same]
  have dropped : ∀ {L' : Links} {M N : Machine} (space : SpaceId), Machine.Follows static L' M N →
      Machine.Follows static L' (M.dropped space) (N.dropped space) := fun space now =>
    ⟨now.memory.drop space, now.context⟩
  have ends := h (f M.memory).1 { M with memory := (f M.memory).2 }
    { N with memory := (g N.memory).2 } ⟨follows, now.context⟩
  generalize hr : x _ _ = r at ends
  generalize hs : y _ _ = s at ends
  cases ends with
  | ok le h now =>
    rw [holding_of_ok hr, holding_of_ok hs]
    exact .ok le h (dropped _ now)
  | raised le h now =>
    rw [holding_of_error hr, holding_of_error hs]
    exact .raised le h (dropped _ now)
  | exhausted le now =>
    rw [holding_of_error hr, holding_of_error hs]
    exact .exhausted le (dropped _ now)

/-- The buffers that both steps get are empty. -/
theorem withBuffer {x : List Value → Eval α} {y : List Value → Eval β}
    (h : Follows static L R (x []) (y [])) :
    Follows static L R (Eval.withBuffer x) (Eval.withBuffer y) := by
  intro M N now
  have taken : Machine.Follows static L (M.withScratch M.memory.scratch.rest)
      (N.withScratch N.memory.scratch.rest) :=
    ⟨now.memory.scratch now.memory.left.rest now.memory.right.rest, now.context⟩
  have given : ∀ {L' : Links} {M N : Machine}, Machine.Follows static L' M N →
      Machine.Follows static L' (M.withScratch (M.memory.scratch.give []))
        (N.withScratch (N.memory.scratch.give [])) := fun now =>
    ⟨now.memory.scratch now.memory.left.give now.memory.right.give, now.context⟩
  have ends : Ends static L R
      (x (M.memory.scratch.buffer 0) (M.withScratch M.memory.scratch.rest))
      (y (N.memory.scratch.buffer 0) (N.withScratch N.memory.scratch.rest)) := by
    rw [now.memory.left 0, now.memory.right 0]
    exact h _ _ taken
  generalize hr : x _ _ = r at ends
  generalize hs : y _ _ = s at ends
  cases ends with
  | ok le h now =>
    rw [withBuffer_of_ok hr, withBuffer_of_ok hs]
    exact .ok le h (given now)
  | raised le h now =>
    rw [withBuffer_of_error hr, withBuffer_of_error hs]
    exact .raised le h (given now)
  | exhausted le now =>
    rw [withBuffer_of_error hr, withBuffer_of_error hs]
    exact .exhausted le (given now)

/-! ## Lists -/

variable {as : List α} {bs : List β}

theorem mapM {f : α → Eval γ} {g : β → Eval δ} (mono : R.Monotone) (mono' : S.Monotone)
    (h : ∀ L' a b, L.Le L' → R L' a b → Follows static L' S (f a) (g b))
    (same : List.Forall₂ (R L) as bs) :
    Follows static L (fun L => List.Forall₂ (S L)) (as.mapM f) (bs.mapM g) := by
  induction as generalizing bs L with
  | nil =>
    cases same
    rw [List.mapM_nil, List.mapM_nil]
    exact pure .nil
  | cons a as ih =>
    cases same with
    | cons first rest =>
      rw [List.mapM_cons, List.mapM_cons]
      refine (h L _ _ (.refl L) first).bind fun L' v w le same => ?_
      refine (ih (fun L'' a b le' => h L'' a b (le.trans le'))
        (rest.imp fun _ _ => mono le)).bind fun L'' vs ws le' others => ?_
      exact .pure (.cons (mono' le' same) others)

theorem forM {f : α → Eval PUnit} {g : β → Eval PUnit} (mono : R.Monotone)
    (h : ∀ L' a b, L.Le L' → R L' a b → Follows static L' (fun _ _ _ => True) (f a) (g b))
    (same : List.Forall₂ (R L) as bs) :
    Follows static L (fun _ _ _ => True) (as.forM f) (bs.forM g) := by
  induction as generalizing bs L with
  | nil =>
    cases same
    exact pure trivial
  | cons a as ih =>
    cases same with
    | cons first rest =>
      exact (h L _ _ (.refl L) first).bind fun L' _ _ le _ =>
        ih (fun L'' a b le' => h L'' a b (le.trans le')) (rest.imp fun _ _ => mono le)

theorem foldlM {f : γ → α → Eval γ} {g : δ → β → Eval δ} (mono : R.Monotone)
    (h : ∀ L' c d a b, L.Le L' → S L' c d → R L' a b → Follows static L' S (f c a) (g d b))
    (same : List.Forall₂ (R L) as bs) {c : γ} {d : δ} (start : S L c d) :
    Follows static L S (as.foldlM f c) (bs.foldlM g d) := by
  induction as generalizing bs L c d with
  | nil =>
    cases same
    exact pure start
  | cons a as ih =>
    cases same with
    | cons first rest =>
      rw [List.foldlM_cons, List.foldlM_cons]
      exact (h L _ _ _ _ (.refl L) start first).bind fun L' _ _ le now =>
        ih (fun L'' c d a b le' => h L'' c d a b (le.trans le')) (rest.imp fun _ _ => mono le) now

end Follows

/-! ## Values -/

theorem newObject_follows : Follows static L (fun _ _ _ => True) (Eval.create Memory.newObject)
    (Eval.create Memory.newObject) :=
  .create fun _ n now => ⟨L, .refl L, trivial, now.objects _ _ (Nat.le_succ n.objects)⟩

theorem newList_follows {xs ys : List Value} (h : L.items xs ys) :
    Follows static L Links.values (newList xs) (newList ys) :=
  newObject_follows.bind fun _ _ _ le _ => .pure (.list trivial (h.mono le.identities))

theorem newDict_follows {es fs : Entries Value} (h : L.entries es fs) :
    Follows static L Links.values (newDict es) (newDict fs) :=
  newObject_follows.bind fun _ _ _ le _ => .pure (.dict trivial (h.mono le.identities))

theorem cast_follows {v w : Value} (h : L.values v w) (ty : Ty) :
    Follows static L Links.values (cast v ty) (cast w ty) :=
  newObject_follows.bind fun _ _ _ le _ =>
    .orderly (Value.cast_alike (h.links le) trivial ty) (Value.cast_orderly _ v ty)

/-- Both sides create a function. -/
theorem newFunction_follows {f g : FunctionObject} (h : FunctionObject.Follows static L f g) :
    Follows static L Links.values (Eval.create (·.newFunction f))
      (Eval.create (·.newFunction g)) := by
  refine .create fun m n now => ⟨_, L.le_withFunctions _ _, ?_, now.newFunction h⟩
  show Value.Alike _ (.function m.functions.size f.signature)
    (.function n.functions.size g.signature)
  rw [h.signature]
  exact .function _ (.inr ⟨rfl, rfl⟩)

theorem pendings_follow {c d : ClosureId} {cs ds : List Captured} (linked : L.closures c d)
    (h : List.Forall₂ (Captured.Follows L) cs ds) :
    List.Forall₂ (Deferral.Follows L) (pendings c cs) (pendings d ds) := by
  have numbered : ∀ index, List.Forall₂ (fun a b => Captured.Follows L a.1 b.1 ∧ a.2 = b.2)
      (cs.zipIdx index) (ds.zipIdx index) := by
    induction h with
    | nil => exact fun _ => .nil
    | cons first _ ih => exact fun index => .cons ⟨first, rfl⟩ (ih (index + 1))
  refine List.rel_filterMap (fun a b same => ?_) (numbered 0)
  obtain ⟨captured, index⟩ := a
  obtain ⟨captured', index'⟩ := b
  obtain ⟨follows, rfl⟩ := same
  cases follows with
  | empty | value => exact .none
  | pending cell => exact .some ⟨rfl, linked, rfl⟩

/-- Both sides create a closure. -/
theorem newClosure_follows {cs ds : List Captured} (h : List.Forall₂ (Captured.Follows L) cs ds) :
    Follows static L Links.closures (newClosure cs) (newClosure ds) := by
  have made : Follows static L (fun L' c d => L'.closures c d ∧
      List.Forall₂ (Captured.Follows L') cs ds) (create (·.newClosure cs))
      (create (·.newClosure ds)) :=
    .create fun m n now => ⟨_, L.le_withClosures _ _, ⟨.inr ⟨rfl, rfl⟩,
      h.imp fun _ _ c => c.links (L.le_withClosures _ _)⟩, now.newClosure h⟩
  refine made.bind fun L' c d _ made => ?_
  have mono : Relation.Monotone Deferral.Follows := fun le _ _ d =>
    { d with closure := le.closures _ _ d.closure }
  refine Follows.bind (.forM mono (fun L'' d e _ same => .modifyContext fun c c' now => ?_)
    (pendings_follow made.1 made.2)) fun L'' _ _ le _ => .pure (le.closures _ _ made.1)
  refine { now with deferred := ?_ }
  exact List.rel_append now.deferred (.cons same .nil)

end Eval

end CellScript
