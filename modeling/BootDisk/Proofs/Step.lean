import BootDisk.Failure
import Mathlib.Data.List.Forall2

set_option autoImplicit false

namespace BootDisk

namespace Outcome

section Bind
variable {ε α β : Type} {x : Except ε α} {f : α → Except ε β}

theorem bind_eq_ok_iff {r : β} : x >>= f = .ok r ↔ ∃ a, x = .ok a ∧ f a = .ok r := by
  cases x with
  | ok a => exact ⟨fun h => ⟨a, rfl, h⟩, fun ⟨_, e, h⟩ => by cases e; exact h⟩
  | error e => exact ⟨fun h => (nomatch h), fun ⟨_, h, _⟩ => (nomatch h)⟩

theorem bind_ok {a : α} (h : x = .ok a) : x >>= f = f a := by
  rw [h]
  rfl

theorem bind_error {e : ε} (h : x = .error e) : x >>= f = .error e := by
  rw [h]
  rfl

end Bind

variable {α β : Type}

theorem orFault_some {f : Fault} {o : Option α} {a : α} (h : o = some a) :
    orFault f o = .ok a := by
  rw [h]
  rfl

theorem orFault_eq_ok_iff {f : Fault} {o : Option α} {a : α} : orFault f o = .ok a ↔ o = some a := by
  cases o with
  | none => exact ⟨fun h => (nomatch h), fun h => (nomatch h)⟩
  | some b => exact ⟨fun h => congrArg some (Except.ok.inj h), fun h => h ▸ rfl⟩

/-- The outcome is an error or a value of this kind; no operation left its domain. -/
def Settles (P : α → Prop) : Outcome α → Prop
  | .ok a => P a
  | .error (.error _) => True
  | .error (.fault _) => False

theorem settles_ok {P : α → Prop} {x : Outcome α} {a : α} (h : x = .ok a) (holds : P a) :
    Settles P x := by
  rw [h]
  exact holds

end Outcome

namespace Step

section Bind
variable {ε σ α β : Type} {x : ExceptT ε (StateM σ) α} {f : α → ExceptT ε (StateM σ) β} {s t u : σ}

theorem bind_ok {a : α} (h : x s = (.ok a, t)) : (x >>= f) s = f a t := by
  change (ExceptT.bindCont f (x s).1) (x s).2 = _
  rw [h]
  rfl

theorem bind_error {e : ε} (h : x s = (.error e, t)) : (x >>= f) s = (.error e, t) := by
  change (ExceptT.bindCont f (x s).1) (x s).2 = _
  rw [h]
  rfl

theorem bind_eq_ok_iff {r : β} :
    (x >>= f) s = (.ok r, u) ↔ ∃ a t, x s = (.ok a, t) ∧ f a t = (.ok r, u) := by
  constructor
  · intro h
    match run : x s with
    | (.ok a, t) => exact ⟨a, t, rfl, (bind_ok run).symm.trans h⟩
    | (.error e, t) => cases (bind_error run).symm.trans h
  · rintro ⟨a, t, run, rest⟩
    exact (bind_ok run).trans rest

end Bind

theorem state_bind {σ α β : Type} {x : StateM σ α} {f : α → StateM σ β} {s t : σ} {a : α}
    (h : x s = (a, t)) : (x >>= f) s = f a t := by
  change f (x s).1 (x s).2 = _
  rw [h]

variable {σ τ α β : Type}

theorem get_bind {f : σ → Step σ β} {s : σ} : ((get : Step σ σ) >>= f) s = f s s := rfl

theorem fail_bind {f : α → Step σ β} {s : σ} {e : DiskError} :
    ((fail e : Step σ α) >>= f) s = (.error (.error e), s) := rfl

theorem discard_ok {x : Step σ α} {s t : σ} {a : α} (h : x s = (.ok a, t)) :
    (discard x : Step σ PUnit) s = (.ok ⟨⟩, t) := by
  unfold discard
  simp only [Functor.mapConst, Function.comp, ExceptT.map, ExceptT.mk, bind, StateT.bind, h]
  rfl

theorem discard_error {x : Step σ α} {s t : σ} {e : Failure} (h : x s = (.error e, t)) :
    (discard x : Step σ PUnit) s = (.error e, t) := by
  unfold discard
  simp only [Functor.mapConst, Function.comp, ExceptT.map, ExceptT.mk, bind, StateT.bind, h]
  rfl

theorem lift_bind_ok {o : Outcome α} {f : α → Step σ β} {s : σ} {a : α} (h : o = .ok a) :
    ((liftM o : Step σ α) >>= f) s = f a s := by
  rw [h]
  rfl

theorem lift_bind_error {o : Outcome α} {f : α → Step σ β} {s : σ} {e : Failure}
    (h : o = .error e) : ((liftM o : Step σ α) >>= f) s = (.error e, s) := by
  rw [h]
  rfl

theorem within_ok {part : σ → τ} {put : σ → τ → σ} {step : Step τ α} {s : σ} {t : τ} {a : α}
    (h : step (part s) = (.ok a, t)) : Step.within part put step s = (.ok a, put s t) := by
  rw [Step.within, h]

theorem within_error {part : σ → τ} {put : σ → τ → σ} {step : Step τ α} {s : σ} {t : τ}
    {e : Failure} (h : step (part s) = (.error e, t)) :
    Step.within part put step s = (.error e, put s t) := by
  rw [Step.within, h]

/-! ## Steps that only read -/

/-- The step leaves the state, whether it ends with a value or not. -/
def Keeps {ε σ α : Type} (x : ExceptT ε (StateM σ) α) : Prop := ∀ s, (x s).2 = s

section Keeps
variable {ε σ α β : Type} {x : ExceptT ε (StateM σ) α} {f : α → ExceptT ε (StateM σ) β}

theorem keeps_pure (a : α) : Keeps (pure a : ExceptT ε (StateM σ) α) := fun _ => rfl

theorem keeps_lift {request : StateM σ α} (h : ∀ s, (request s).2 = s) :
    Keeps (liftM request : ExceptT ε (StateM σ) α) := h

theorem keeps_outcome (o : Outcome α) : Keeps (liftM o : Step σ α) := by
  cases o with
  | ok a => exact fun _ => rfl
  | error e => exact fun _ => rfl

theorem Keeps.bind (hx : Keeps x) (hf : ∀ a, Keeps (f a)) : Keeps (x >>= f) := by
  intro s
  match run : x s with
  | (.ok a, t) =>
    rw [bind_ok run, hf a t, ← hx s, run]
  | (.error e, t) =>
    rw [bind_error run, ← hx s, run]

theorem keeps_mapM {f : α → ExceptT ε (StateM σ) β} (h : ∀ a, Keeps (f a)) (l : List α) :
    Keeps (l.mapM f) := by
  induction l with
  | nil => exact keeps_pure _
  | cons a l ih =>
    rw [List.mapM_cons]
    exact (h a).bind fun _ => ih.bind fun _ => keeps_pure _

theorem Keeps.eq (h : Keeps x) {s t : σ} {r : Except ε α} (run : x s = (r, t)) : t = s := by
  rw [← h s, run]

end Keeps

/-- Where each step only reads, a list of them runs them all on the same state. -/
theorem mapM_eq_ok_iff {ε σ α β : Type} {f : α → ExceptT ε (StateM σ) β}
    (keeps : ∀ a, Keeps (f a)) {l : List α} {s t : σ} {results : List β} :
    l.mapM f s = (.ok results, t) ↔
      List.Forall₂ (fun a b => f a s = (.ok b, s)) l results ∧ t = s := by
  induction l generalizing results t with
  | nil =>
    rw [List.mapM_nil]
    constructor
    · intro h
      cases h
      exact ⟨.nil, rfl⟩
    · rintro ⟨_ | _, rfl⟩
      rfl
  | cons a rest ih =>
    rw [List.mapM_cons, bind_eq_ok_iff]
    constructor
    · rintro ⟨b, u, first, next⟩
      obtain ⟨others, v, later, made⟩ := bind_eq_ok_iff.1 next
      cases (keeps a).eq first
      obtain ⟨tail, rfl⟩ := ih.1 later
      cases made
      exact ⟨.cons first tail, rfl⟩
    · rintro ⟨_ | ⟨first, tail⟩, rfl⟩
      exact ⟨_, _, first, bind_eq_ok_iff.2 ⟨_, _, ih.2 ⟨tail, rfl⟩, rfl⟩⟩

/-! ## Steps that end alike on two states -/

def Agrees {ε σ α : Type} (x : ExceptT ε (StateM σ) α) (s t : σ) : Prop :=
  ∃ r, x s = (r, s) ∧ x t = (r, t)

section Agrees
variable {ε σ α β : Type} {x : ExceptT ε (StateM σ) α} {f : α → ExceptT ε (StateM σ) β} {s t : σ}

theorem agrees_pure (a : α) : Agrees (pure a : ExceptT ε (StateM σ) α) s t := ⟨.ok a, rfl, rfl⟩

theorem agrees_outcome (o : Outcome α) : Agrees (liftM o : Step σ α) s t := by
  cases o with
  | ok a => exact ⟨.ok a, rfl, rfl⟩
  | error e => exact ⟨.error e, rfl, rfl⟩

theorem Agrees.bind (hx : Agrees x s t) (hf : ∀ a, Agrees (f a) s t) : Agrees (x >>= f) s t := by
  obtain ⟨r, left, right⟩ := hx
  cases r with
  | error e => exact ⟨.error e, bind_error left, bind_error right⟩
  | ok a =>
    obtain ⟨r, leftNext, rightNext⟩ := hf a
    exact ⟨r, (bind_ok left).trans leftNext, (bind_ok right).trans rightNext⟩

theorem agrees_mapM {f : α → ExceptT ε (StateM σ) β} (h : ∀ a, Agrees (f a) s t) (l : List α) :
    Agrees (l.mapM f) s t := by
  induction l with
  | nil => exact agrees_pure _
  | cons a l ih =>
    rw [List.mapM_cons]
    exact (h a).bind fun _ => ih.bind fun _ => agrees_pure _

end Agrees

/-! ## Attempts one after another -/

/-- Attempts a step for each argument: the values of those that end with one, and the state after
all of them. -/
def each {σ α β : Type} (f : α → Step σ β) : List α → σ → List β × σ
  | [], s => ([], s)
  | a :: rest, s =>
    match f a s with
    | (.ok b, t) => let (values, u) := each f rest t; (b :: values, u)
    | (.error _, t) => each f rest t

section Each
variable {σ α β : Type} {f : α → Step σ β}

theorem each_append (args more : List α) (s : σ) :
    each f (args ++ more) s = ((each f args s).1 ++ (each f more (each f args s).2).1,
      (each f more (each f args s).2).2) := by
  induction args generalizing s with
  | nil => rfl
  | cons a rest ih =>
    rw [List.cons_append, each, each]
    match f a s with
    | (.ok b, t) => simp only [ih t, List.cons_append]
    | (.error _, t) => exact ih t

/-- The invariant speaks of the state and of the values so far. -/
theorem each_keeps {P : List β → σ → Prop} {args : List α}
    (attempt : ∀ a ∈ args, ∀ values s, P values s →
      (∃ b t, f a s = (.ok b, t) ∧ P (values ++ [b]) t) ∨ ∃ e t, f a s = (.error e, t) ∧ P values t)
    {values : List β} {s : σ} (h : P values s) :
    P (values ++ (each f args s).1) (each f args s).2 := by
  induction args generalizing values s with
  | nil =>
    rw [each, List.append_nil]
    exact h
  | cons a rest ih =>
    have later := fun c hc => attempt c (List.mem_cons_of_mem a hc)
    rw [each]
    rcases attempt a List.mem_cons_self values s h with ⟨b, t, run, kept⟩ | ⟨e, t, run, kept⟩
    · have rest := ih later kept
      rw [List.append_assoc] at rest
      rw [run]
      exact rest
    · rw [run]
      exact ih later kept

end Each

end Step

end BootDisk
