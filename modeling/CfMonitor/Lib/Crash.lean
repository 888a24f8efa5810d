/-
  Programs over a durable state that may be cut off between any two of their operations.

  A program maps the state it starts in to
    * every state it leaves behind on its way, one for each atomic operation, in order;
    * the state at its end;
    * a result, or the error that ended it.
  A crash shows the start or one of the states on the way.  What an operation does may depend on
  the environment (a write that fails, a name that is chosen): such choices are arguments of the
  program, so that a program stays a function.

  `Triple pre m crash post fail` is the rule of pre- and postconditions with a CRASH CONDITION:
  from a state in `pre`, every state on the way satisfies `crash`, a normal end satisfies `post`
  and an error satisfies `fail`.  The start is the caller's: it has to satisfy `crash` as well.
-/
import Mathlib.Data.List.Basic
import Mathlib.Tactic.Common

namespace CfMonitor.Lib

/-- What one execution leaves: the states on the way, the last state, the result. -/
structure Exec (σ ε α : Type) where
  seen : List σ
  last : σ
  result : Except ε α

/-- A program over the durable state `σ` that returns an `α` or fails with an `ε`. -/
def Prog (σ ε α : Type) : Type := σ → Exec σ ε α

namespace Prog

variable {σ ε α β : Type}

/-- Run the second program from the end of the first, unless the first failed. -/
def bind (m : Prog σ ε α) (f : α → Prog σ ε β) : Prog σ ε β := fun s =>
  match (m s).result with
  | .error e => ⟨(m s).seen, (m s).last, .error e⟩
  | .ok a => ⟨(m s).seen ++ (f a (m s).last).seen, (f a (m s).last).last,
      (f a (m s).last).result⟩

instance : Monad (Prog σ ε) where
  pure a := fun s => ⟨[], s, .ok a⟩
  bind := bind

/-- End with an error. -/
def fail (e : ε) : Prog σ ε α := fun s => ⟨[], s, .error e⟩

/-- Read the state. -/
def get : Prog σ ε σ := fun s => ⟨[], s, .ok s⟩

/-- One atomic operation. -/
def modify (f : σ → σ) : Prog σ ε Unit := fun s => ⟨[f s], f s, .ok ()⟩

/-- Go on when the condition holds, else end with an error. -/
def require (c : Bool) (e : ε) : Prog σ ε Unit := if c then pure () else fail e

/-- An operation for each element of a list, in order. -/
def forEach (l : List α) (f : α → Prog σ ε Unit) : Prog σ ε Unit :=
  match l with
  | [] => pure ()
  | a :: rest => bind (f a) fun _ => forEach rest f

end Prog

open Prog

variable {σ ε α β : Type}

/-- From `pre`, every state on the way satisfies `crash`, a normal end `post`, an error `fail`. -/
def Triple (pre : σ → Prop) (m : Prog σ ε α) (crash : σ → Prop) (post : α → σ → Prop)
    (fail : σ → Prop) : Prop :=
  ∀ s, pre s → (∀ s' ∈ (m s).seen, crash s') ∧ (∀ a, (m s).result = .ok a → post a (m s).last) ∧
    (∀ e, (m s).result = .error e → fail (m s).last)

namespace Triple

variable {P crash fail : σ → Prop} {post : α → σ → Prop}

theorem pure {a : α} (h : ∀ s, P s → post a s) : Triple P (Pure.pure a : Prog σ ε α) crash post fail := by
  intro s hs
  refine ⟨nofun, ?_, ?_⟩
  · intro a' ha
    obtain rfl : a = a' := Except.ok.inj ha
    exact h s hs
  · intro e he
    exact absurd he (by intro h'; cases h')

variable {e : ε}

theorem fail_with (h : ∀ s, P s → fail s) : Triple P (Prog.fail e : Prog σ ε α) crash post fail := by
  intro s hs
  refine ⟨nofun, ?_, fun _ _ => h s hs⟩
  intro a ha
  exact absurd ha (by intro h'; cases h')

theorem modify {f : σ → σ} {post : Unit → σ → Prop} (h : ∀ s, P s → crash (f s) ∧ post () (f s)) :
    Triple P (Prog.modify f : Prog σ ε Unit) crash post fail := by
  intro s hs
  obtain ⟨hc, hp⟩ := h s hs
  refine ⟨?_, fun _ _ => hp, ?_⟩
  · intro s' h'
    obtain rfl := List.mem_singleton.mp h'
    exact hc
  · intro e he
    exact absurd he (by intro h'; cases h')

variable {m : Prog σ ε α}

/-- **Sequencing**: what the first program establishes is what the second may rely on. -/
theorem bind {M : α → σ → Prop} {post : β → σ → Prop} {f : α → Prog σ ε β}
    (hm : Triple P m crash M fail) (hf : ∀ a, Triple (M a) (f a) crash post fail) :
    Triple P (m >>= f) crash post fail := by
  intro s hs
  obtain ⟨hseen, hok, herr⟩ := hm s hs
  have hb : (m >>= f) = Prog.bind m f := rfl
  rw [hb]
  unfold Prog.bind
  cases hr : (m s).result with
  | error e =>
    exact ⟨hseen, fun a ha => absurd ha (by intro h'; cases h'), fun e' _ => herr e hr⟩
  | ok a =>
    obtain ⟨hseen', hok', herr'⟩ := hf a (m s).last (hok a hr)
    refine ⟨?_, hok', herr'⟩
    intro s' h'
    rcases List.mem_append.mp h' with h1 | h2
    · exact hseen s' h1
    · exact hseen' s' h2

/-- A check passes or ends the program. -/
theorem require {c : Bool} {post : Unit → σ → Prop}
    (hok : ∀ s, P s → c = true → post () s) (hfail : ∀ s, P s → fail s) :
    Triple P (Prog.require c e : Prog σ ε Unit) crash post fail := by
  cases hc : c with
  | true => exact Triple.pure fun s hs => hok s hs hc
  | false => exact Triple.fail_with hfail

theorem check {c : Bool} (hfail : ∀ s, P s → fail s) :
    Triple P (Prog.require c e : Prog σ ε Unit) crash (fun _ => P) fail :=
  Triple.require (fun _ hs _ => hs) hfail

theorem get : Triple P (Prog.get : Prog σ ε σ) crash (fun a s => a = s ∧ P s) fail := by
  intro s hs
  refine ⟨nofun, ?_, ?_⟩
  · intro a ha
    exact ⟨(Except.ok.inj ha).symm, hs⟩
  · intro e he
    exact absurd he (by intro h'; cases h')

theorem conseq {Q crash' fail' : σ → Prop} {post' : α → σ → Prop}
    (hm : Triple P m crash post fail) (hpre : ∀ s, Q s → P s)
    (hcrash : ∀ s, crash s → crash' s) (hpost : ∀ a s, post a s → post' a s)
    (hfail : ∀ s, fail s → fail' s) : Triple Q m crash' post' fail' := by
  intro s hs
  obtain ⟨hseen, hok, herr⟩ := hm s (hpre s hs)
  exact ⟨fun s' h' => hcrash s' (hseen s' h'), fun a ha => hpost a _ (hok a ha),
    fun e he => hfail _ (herr e he)⟩

/-- **Loops**: an invariant of the body, for every element, is an invariant of the loop. -/
theorem forEach {l : List α} {f : α → Prog σ ε Unit} {inv : σ → Prop}
    (hf : ∀ a ∈ l, Triple inv (f a) crash (fun _ => inv) fail) :
    Triple inv (Prog.forEach l f) crash (fun _ => inv) fail := by
  induction l with
  | nil => exact Triple.pure fun _ hs => hs
  | cons a rest ih =>
    refine Triple.bind (hf a List.mem_cons_self) fun _ => ?_
    exact ih fun a' ha' => hf a' (List.mem_cons_of_mem a ha')

end Triple
end CfMonitor.Lib
