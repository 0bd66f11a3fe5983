import Mathlib.Data.List.Forall2
import SyncEndpoint.Storage.Program

set_option autoImplicit false

/-! # Programs on a storage whose calls may fail

A program runs not only on a backend, which has one answer to each call, but on any relation of
answers. `unreliable` gives the answers of a backend on which chosen calls may fail before they
take effect, listed entries may refuse to be looked at, and a write may stop short. `Every` is what
holds after every run, and `Ensures` the same for attempts, with one postcondition for a result and
one for an error; both are computed along the program, one rule for each way to build it. -/

namespace SyncEndpoint.Storage

variable {σ R W α β ε δ : Type}

/-! ## Answers -/

/-- How a storage may answer a call: with a reply, and as the storage that it then is. -/
abbrev Answers (σ R W : Type) : Type :=
  (c : Call R W) → σ → c.Reply → σ → Prop

/-- Which calls may be refused, and with what: a call as a whole, or the look at a listed entry. -/
structure Refusal (R W : Type) where
  call : Call R W → IoError → Prop
  entry : NativePath → String → IoError → Prop

/-- Nothing is refused. -/
def Refusal.none : Refusal R W :=
  ⟨fun _ _ => False, fun _ _ _ => False⟩

/-- Anything may be refused, with any error. -/
def Refusal.all : Refusal R W :=
  ⟨fun _ _ => True, fun _ _ _ => True⟩

/-- Whether there is anything that may be refused. -/
def Refusal.Possible (refusal : Refusal R W) : Prop :=
  (∃ c e, refusal.call c e) ∨ ∃ path name e, refusal.entry path name e

theorem Refusal.not_possible_none : ¬ (Refusal.none : Refusal R W).Possible := by
  rintro (⟨_, _, h⟩ | ⟨_, _, _, h⟩) <;> exact h

/-- What a call does, or a refusal that leaves the storage as it is. -/
def OrRefused (refused : IoError → Prop) (done : Except IoError α × σ) (s : σ)
    (reply : Except IoError α) (s' : σ) : Prop :=
  done = (reply, s') ∨ ∃ e, refused e ∧ reply = .error e ∧ s' = s

/-- A listing with an error in the place of what is said of some entries. -/
def Dimmed (refused : String → IoError → Prop) (listed shown : List Listed) : Prop :=
  List.Forall₂ (fun l l' => l' = l ∨ ∃ e, refused l.name e ∧ l' = { l with metadata := .error e })
    listed shown

/-- A listing, if there is one, with errors in it. -/
def DimmedReply (refused : String → IoError → Prop) :
    Except IoError (List Listed) → Except IoError (List Listed) → Prop
  | .ok listed, .ok shown => Dimmed refused listed shown
  | .error e, .error e' => e' = e
  | _, _ => False

/-- The answers of a backend on which calls may be refused. A write that is refused may have
written the first of its bytes. -/
def unreliable (backend : Backend σ R W) (refusal : Refusal R W) : Answers σ R W
  | .stat path, s => OrRefused (refusal.call (.stat path)) (backend (.stat path) s) s
  | .openRead path, s => OrRefused (refusal.call (.openRead path)) (backend (.openRead path) s) s
  | .create path, s => OrRefused (refusal.call (.create path)) (backend (.create path) s) s
  | .openWrite path, s => OrRefused (refusal.call (.openWrite path)) (backend (.openWrite path) s) s
  | .createDirAll path, s =>
    OrRefused (refusal.call (.createDirAll path)) (backend (.createDirAll path) s) s
  | .removeAll path, s => OrRefused (refusal.call (.removeAll path)) (backend (.removeAll path) s) s
  | .rename source target, s =>
    OrRefused (refusal.call (.rename source target)) (backend (.rename source target) s) s
  | .readDir path, s => fun reply s' =>
    ∃ listed, OrRefused (refusal.call (.readDir path)) (backend (.readDir path) s) s listed s' ∧
      DimmedReply (refusal.entry path) listed reply
  | .read reader n, s => OrRefused (refusal.call (.read reader n)) (backend (.read reader n) s) s
  | .write writer data, s => fun reply s' =>
    backend (.write writer data) s = (reply, s') ∨
      ∃ e, refusal.call (.write writer data) e ∧ reply.1 = .error e ∧
        (reply.2 = writer ∧ s' = s ∨
          ∃ n written, backend (.write writer (data.take n)) s = ((written, reply.2), s'))
  | .flush writer, s => OrRefused (refusal.call (.flush writer)) (backend (.flush writer) s) s
  | .shutdown writer, s =>
    OrRefused (refusal.call (.shutdown writer)) (backend (.shutdown writer) s) s
  | .bytesLeft reader, s => fun reply s' => backend (.bytesLeft reader) s = (reply, s')
  | .depthBound, s => fun reply s' => backend .depthBound s = (reply, s')

/-! ## Runs -/

namespace Program

theorem bind_done (p : Program R W α) : p.bind .done = p := by
  induction p with
  | done a => rfl
  | call c next ih => exact congrArg (Program.call c) (funext fun reply => ih reply)
  | mint next ih => exact congrArg Program.mint (funext fun id => ih id)

theorem bind_assoc (p : Program R W α) (f : α → Program R W β) (g : β → Program R W δ) :
    (p.bind f).bind g = p.bind fun a => (f a).bind g := by
  induction p with
  | done a => rfl
  | call c next ih => exact congrArg (Program.call c) (funext fun reply => ih reply)
  | mint next ih => exact congrArg Program.mint (funext fun id => ih id)

instance : LawfulMonad (Program R W) :=
  LawfulMonad.mk' _ bind_done (fun _ _ => rfl) bind_assoc

/-- A run of a program: where it starts, what it ends with, and where. -/
inductive Runs (answers : Answers σ R W) : Program R W α → World σ → α → World σ → Prop
  | done (a : α) (w : World σ) : Runs answers (.done a) w a w
  | call {c : Call R W} {next : c.Reply → Program R W α} {w w' : World σ} {a : α}
      (reply : c.Reply) (s : σ) (hanswer : answers c w.storage reply s)
      (hnext : Runs answers (next reply) { w with storage := s } a w') :
      Runs answers (.call c next) w a w'
  | mint {next : String → Program R W α} {w w' : World σ} {a : α}
      (hnext : Runs answers (next (Uuid.ofNat w.minted)) { w with minted := w.minted + 1 } a w') :
      Runs answers (.mint next) w a w'

/-- What holds after every run of a program. -/
def Every (answers : Answers σ R W) (post : α → World σ → Prop) :
    Program R W α → World σ → Prop
  | .done a, w => post a w
  | .call c next, w =>
    ∀ reply s, answers c w.storage reply s →
      (next reply).Every answers post { w with storage := s }
  | .mint next, w =>
    (next (Uuid.ofNat w.minted)).Every answers post { w with minted := w.minted + 1 }

variable {answers : Answers σ R W} {post : α → World σ → Prop} {p : Program R W α}
  {w w' : World σ}

theorem Every.of_runs {a : α} (h : p.Every answers post w) (hruns : p.Runs answers w a w') :
    post a w' := by
  induction hruns with
  | done a w => exact h
  | call reply s hanswer _ ih => exact ih (h reply s hanswer)
  | mint _ ih => exact ih h

theorem Every.mono {post' : α → World σ → Prop} (h : p.Every answers post w)
    (himp : ∀ a w', post a w' → post' a w') : p.Every answers post' w := by
  induction p generalizing w with
  | done a => exact himp a w h
  | call c next ih => exact fun reply s hanswer => ih reply (h reply s hanswer)
  | mint next ih => exact ih _ h

theorem every_bind {f : α → Program R W β} {post : β → World σ → Prop} :
    (p.bind f).Every answers post w ↔
      p.Every answers (fun a w' => (f a).Every answers post w') w := by
  induction p generalizing w with
  | done a => rfl
  | call c next ih => exact forall_congr' fun reply => forall₂_congr fun s _ => ih reply
  | mint next ih => exact ih _

theorem every_of_forall (h : ∀ a w', post a w') : p.Every answers post w := by
  induction p generalizing w with
  | done a => exact h a w
  | call c next ih => exact fun reply s _ => ih reply
  | mint next ih => exact ih _

/-- What holds at the end of a continuation from wherever it starts, holds behind any program. -/
theorem every_bind_of_forall {f : α → Program R W β} {post : β → World σ → Prop}
    (h : ∀ a w', (f a).Every answers post w') : (p.bind f).Every answers post w :=
  every_bind.mpr (every_of_forall h)

/-- What a backend does is a run, if it gives answers that may be given. -/
theorem runs_run_of_answers {backend : Backend σ R W}
    (h : ∀ c s, answers c s (backend c s).1 (backend c s).2) (p : Program R W α) (w : World σ) :
    p.Runs answers w (p.run backend w).1 (p.run backend w).2 := by
  induction p generalizing w with
  | done a => exact .done a w
  | mint next ih => exact .mint (ih _ _)
  | call c next ih => exact .call _ _ (h c w.storage) (ih _ _)

end Program

/-- A backend answers as it does itself, also if its calls may be refused. -/
theorem unreliable_backend (backend : Backend σ R W) (refusal : Refusal R W) (c : Call R W)
    (s : σ) : unreliable backend refusal c s (backend c s).1 (backend c s).2 := by
  cases c with
  | readDir path =>
    -- A listing is shown as it is, with no error in it.
    refine ⟨_, Or.inl rfl, ?_⟩
    cases hreply : (backend (.readDir path) s).1 with
    | ok listed => exact List.forall₂_same.mpr fun l _ => Or.inl rfl
    | error e => rfl
  | bytesLeft | depthBound => rfl
  | _ => exact Or.inl rfl

theorem Program.runs_run (backend : Backend σ R W) (refusal : Refusal R W) (p : Program R W α)
    (w : World σ) :
    p.Runs (unreliable backend refusal) w (p.run backend w).1 (p.run backend w).2 :=
  p.runs_run_of_answers (unreliable_backend backend refusal) w

/-! ## Attempts -/

/-- An attempt ends with a result and `ok` afterwards, or with an error and `failed` afterwards. -/
def Ensures (answers : Answers σ R W) (w : World σ) (x : Attempt R W ε α)
    (ok : α → World σ → Prop) (failed : ε → World σ → Prop) : Prop :=
  x.run.Every answers
    (fun result w' => match result with | .ok a => ok a w' | .error e => failed e w') w

namespace Ensures

variable {answers : Answers σ R W} {w w' : World σ} {x : Attempt R W ε α}
  {ok ok' : α → World σ → Prop} {failed failed' : ε → World σ → Prop}

theorem mono (h : Ensures answers w x ok failed) (hok : ∀ a w', ok a w' → ok' a w')
    (hfailed : ∀ e w', failed e w' → failed' e w') : Ensures answers w x ok' failed' := by
  refine Program.Every.mono h fun result w' => ?_
  cases result with
  | ok a => exact hok a w'
  | error e => exact hfailed e w'

theorem of_runs_ok {a : α} (h : Ensures answers w x ok failed)
    (hruns : x.run.Runs answers w (.ok a) w') : ok a w' := by
  rw [Ensures] at h
  exact h.of_runs hruns

theorem of_runs_error {e : ε} (h : Ensures answers w x ok failed)
    (hruns : x.run.Runs answers w (.error e) w') : failed e w' := by
  rw [Ensures] at h
  exact h.of_runs hruns

/-- An attempt that cannot fail on a backend has a result there. -/
theorem run_eq_ok {backend : Backend σ R W}
    (h : Ensures (unreliable backend .none) w x ok fun _ _ => False) :
    ∃ a, (x.run.run backend w).1 = .ok a ∧ ok a (x.run.run backend w).2 := by
  have hruns := Program.runs_run backend .none x.run w
  cases hresult : (x.run.run backend w).1 with
  | ok a =>
    rw [hresult] at hruns
    exact ⟨a, rfl, h.of_runs_ok hruns⟩
  | error e =>
    rw [hresult] at hruns
    exact (h.of_runs_error hruns).elim

/-! ### One rule for each way to build an attempt -/

@[simp]
theorem pure_iff {a : α} : Ensures answers w (pure a : Attempt R W ε α) ok failed ↔ ok a w :=
  Iff.rfl

@[simp]
theorem throw_iff {e : ε} :
    Ensures answers w (throw e : Attempt R W ε α) ok failed ↔ failed e w :=
  Iff.rfl

theorem bind_iff {f : α → Attempt R W ε β} {ok : β → World σ → Prop} :
    Ensures answers w (x >>= f) ok failed ↔
      Ensures answers w x (fun a w' => Ensures answers w' (f a) ok failed) failed := by
  refine Program.every_bind.trans (iff_of_eq ?_)
  congr 1
  funext result w'
  cases result <;> rfl

/-- The result of an attempt, error or not, as a result. -/
theorem lift_run_iff {ok : Except ε α → World σ → Prop} {failed : δ → World σ → Prop} :
    Ensures answers w (ExceptT.lift x.run : Attempt R W δ (Except ε α)) ok failed ↔
      Ensures answers w x (fun a => ok (.ok a)) (fun e => ok (.error e)) := by
  refine Program.every_bind.trans (iff_of_eq ?_)
  congr 1
  funext result w'
  cases result <;> rfl

theorem withError_iff {f : ε → δ} {failed : δ → World σ → Prop} :
    Ensures answers w (withError f x) ok failed ↔
      Ensures answers w x ok fun e => failed (f e) := by
  refine Program.every_bind.trans (iff_of_eq ?_)
  congr 1
  funext result w'
  cases result <;> rfl

end Ensures

end SyncEndpoint.Storage
