import Mathlib.Data.List.Forall2
import SyncEndpoint.Proofs.Storage.Unreliable
import SyncEndpoint.Storage.Memory

set_option autoImplicit false

/-! # What programs keep

A program keeps a property of the storage if each of its calls does, whatever else they come to.
`Program.Keeps` has one rule for each way to build a program, and `KeepsOr` the same for attempts,
with one property of a result and one of an error; `Keeps` asks nothing of the error. All of them are
instances of `Logic`, where going through a list is argued once. What is kept of a storage in memory
is then a matter of single calls (`Call.Keeps`): those that only look keep everything, and there is one
rule for each of the others, and for each program on whole files. -/

namespace SyncEndpoint.Storage

variable {σ R W α β ε δ : Type}

/-! ## Logics -/

/-- A way to say what the programs of a monad end with, with a rule for `pure` and one for `>>=`. -/
structure Logic (m : Type → Type) [Monad m] where
  Holds : {α : Type} → m α → (α → Prop) → Prop
  pure : ∀ {α : Type} {a : α} {post : α → Prop}, post a → Holds (Pure.pure a) post
  bind : ∀ {α β : Type} {x : m α} {f : α → m β} {post : α → Prop} {post' : β → Prop},
    Holds x post → (∀ a, post a → Holds (f a) post') → Holds (x >>= f) post'

namespace Logic

variable {m : Type → Type} [Monad m] [LawfulMonad m] (logic : Logic m) {x : m α} {post : α → Prop}

theorem map {f : α → β} {post' : β → Prop} (h : logic.Holds x post)
    (hf : ∀ a, post a → post' (f a)) : logic.Holds (f <$> x) post' := by
  rw [← bind_pure_comp]
  exact logic.bind h fun a ha => logic.pure (hf a ha)

theorem mono {post' : α → Prop} (h : logic.Holds x post) (himp : ∀ a, post a → post' a) :
    logic.Holds x post' := by
  rw [← bind_pure x]
  exact logic.bind h fun a ha => logic.pure (himp a ha)

/-- Going through a list, with what is known of each result. -/
theorem mapM {as : List α} {f : α → m β} {P : α → β → Prop}
    (h : ∀ a ∈ as, logic.Holds (f a) (P a)) : logic.Holds (as.mapM f) (List.Forall₂ P as) := by
  induction as with
  | nil =>
    rw [List.mapM_nil]
    exact logic.pure .nil
  | cons a as ih =>
    rw [List.forall_mem_cons] at h
    rw [List.mapM_cons]
    exact logic.bind h.1 fun b hb => logic.bind (ih h.2) fun bs hbs => logic.pure (.cons hb hbs)

theorem forall_mapM {as : List α} {f : α → m β} {post : β → Prop}
    (h : ∀ a ∈ as, logic.Holds (f a) post) :
    logic.Holds (as.mapM f) fun bs => ∀ b ∈ bs, post b := by
  refine logic.mono (logic.mapM h) fun bs hbs => ?_
  induction hbs with
  | nil => exact List.forall_mem_nil _
  | cons hb _ ih => exact List.forall_mem_cons.mpr ⟨hb, ih (List.forall_mem_cons.mp h).2⟩

end Logic

/-! ## Programs -/

/-- A program keeps a property of the storage, and what it ends with has a property, too. -/
def Program.Keeps (answers : Answers σ R W) (inv : σ → Prop) (p : Program R W α)
    (result : α → Prop) : Prop :=
  ∀ w : World σ, inv w.storage → p.Every answers (fun a w' => inv w'.storage ∧ result a) w

namespace Program

variable {answers : Answers σ R W} {inv : σ → Prop} {p : Program R W α} {result : α → Prop}

namespace Keeps

theorem of_runs (h : p.Keeps answers inv result) {w w' : World σ} (hw : inv w.storage) {a : α}
    (hruns : p.Runs answers w a w') : inv w'.storage ∧ result a :=
  (h w hw).of_runs hruns

theorem pure {a : α} (ha : result a) :
    (Pure.pure a : Program R W α).Keeps answers inv result :=
  fun _ hw => ⟨hw, ha⟩

theorem call {c : Call R W} {result : c.Reply → Prop}
    (h : ∀ s reply s', inv s → answers c s reply s' → inv s' ∧ result reply) :
    (Program.call c .done).Keeps answers inv result :=
  fun w hw reply s' hanswer => h w.storage reply s' hw hanswer

theorem bind {f : α → Program R W β} {result' : β → Prop} (h : p.Keeps answers inv result)
    (hf : ∀ a, result a → (f a).Keeps answers inv result') :
    (p >>= f).Keeps answers inv result' :=
  fun w hw => every_bind.mpr ((h w hw).mono fun a w' hpost => hf a hpost.2 w' hpost.1)

end Keeps

/-- What programs keep, as a logic. -/
def keeping (answers : Answers σ R W) (inv : σ → Prop) : Logic (Program R W) where
  Holds p result := p.Keeps answers inv result
  pure := .pure
  bind := .bind

namespace Keeps

theorem mono (h : p.Keeps answers inv result) {result' : α → Prop}
    (himp : ∀ a, result a → result' a) : p.Keeps answers inv result' :=
  (keeping answers inv).mono h himp

theorem mapM {as : List α} {f : α → Program R W β} {result : β → Prop}
    (h : ∀ a ∈ as, (f a).Keeps answers inv result) :
    (as.mapM f).Keeps answers inv fun bs => ∀ b ∈ bs, result b :=
  (keeping answers inv).forall_mapM h

theorem mint : (Storage.mint : Program R W String).Keeps answers inv fun _ => True :=
  fun _ hw => ⟨hw, trivial⟩

end Keeps

/-- Where nothing is kept, there is still what all runs end with. -/
theorem keeps_true_iff :
    p.Keeps answers (fun _ => True) result ↔ ∀ w, p.Every answers (fun a _ => result a) w :=
  ⟨fun h w => (h w trivial).mono fun _ _ hpost => hpost.2,
    fun h w _ => (h w).mono fun _ _ ha => ⟨trivial, ha⟩⟩

/-- Going through a list, with what is known of each result. -/
theorem every_mapM {f : α → Program R W β} {P : α → β → Prop} {as : List α}
    (h : ∀ a ∈ as, ∀ w, (f a).Every answers (fun b _ => P a b) w) (w : World σ) :
    (as.mapM f).Every answers (fun bs _ => List.Forall₂ P as bs) w :=
  keeps_true_iff.mp
    ((keeping answers fun _ => True).mapM fun a ha => keeps_true_iff.mpr (h a ha)) w

end Program

/-! ## Attempts -/

/-- A result has a property, or the error in its place has one. -/
def OkOr (failed : ε → Prop) (result : α → Prop) : Except ε α → Prop
  | .ok a => result a
  | .error e => failed e

@[simp]
theorem okOr_true (res : Except ε α) : OkOr (fun _ => True) (fun _ => True) res := by
  cases res <;> trivial

theorem OkOr.mono {failed failed' : ε → Prop} {result result' : α → Prop} {res : Except ε α}
    (h : OkOr failed result res) (hfailed : ∀ e, failed e → failed' e)
    (hresult : ∀ a, result a → result' a) : OkOr failed' result' res := by
  cases res with
  | ok a => exact hresult a h
  | error e => exact hfailed e h

/-- An attempt keeps a property of the storage, whatever comes of it; its result has a property, and
its error has one. -/
def KeepsOr (answers : Answers σ R W) (inv : σ → Prop) (failed : ε → Prop) (x : Attempt R W ε α)
    (result : α → Prop) : Prop :=
  x.run.Keeps answers inv (OkOr failed result)

/-- An attempt keeps a property of the storage, whatever comes of it, and its result, if it has one,
has a property, too. -/
abbrev Keeps (answers : Answers σ R W) (inv : σ → Prop) (x : Attempt R W ε α)
    (result : α → Prop) : Prop :=
  KeepsOr answers inv (fun _ => True) x result

namespace KeepsOr

variable {answers : Answers σ R W} {inv : σ → Prop} {failed : ε → Prop} {x : Attempt R W ε α}
  {result : α → Prop}

theorem of_runs (h : KeepsOr answers inv failed x result) {w w' : World σ} (hw : inv w.storage)
    {res : Except ε α} (hruns : x.run.Runs answers w res w') :
    inv w'.storage ∧ OkOr failed result res :=
  Program.Keeps.of_runs h hw hruns

theorem pure {a : α} (ha : result a) :
    KeepsOr answers inv failed (Pure.pure a : Attempt R W ε α) result :=
  Program.Keeps.pure ha

theorem throw {e : ε} (he : failed e) :
    KeepsOr answers inv failed (throw e : Attempt R W ε α) result :=
  Program.Keeps.pure he

theorem bind {f : α → Attempt R W ε β} {result' : β → Prop}
    (h : KeepsOr answers inv failed x result)
    (hf : ∀ a, result a → KeepsOr answers inv failed (f a) result') :
    KeepsOr answers inv failed (x >>= f) result' := by
  refine Program.Keeps.bind h fun res hres => ?_
  cases res with
  | ok a => exact hf a hres
  | error e => exact Program.Keeps.pure hres

/-- What attempts keep, as a logic. -/
def logic (answers : Answers σ R W) (inv : σ → Prop) (failed : ε → Prop) :
    Logic (ExceptT ε (Program R W)) where
  Holds x result := KeepsOr answers inv failed x result
  pure := .pure
  bind := .bind

theorem mono {result' : α → Prop} (h : KeepsOr answers inv failed x result)
    (himp : ∀ a, result a → result' a) : KeepsOr answers inv failed x result' :=
  (logic answers inv failed).mono h himp

theorem map {f : α → β} {result' : β → Prop} (h : KeepsOr answers inv failed x result)
    (hf : ∀ a, result a → result' (f a)) : KeepsOr answers inv failed (f <$> x) result' :=
  (logic answers inv failed).map h hf

theorem mapM {as : List α} {f : α → Attempt R W ε β} {result : β → Prop}
    (h : ∀ a ∈ as, KeepsOr answers inv failed (f a) result) :
    KeepsOr answers inv failed (as.mapM f) fun bs => ∀ b ∈ bs, result b :=
  (logic answers inv failed).forall_mapM h

/-- A program that does not fail. -/
theorem lift {p : Program R W α} (h : p.Keeps answers inv result) :
    KeepsOr answers inv failed (ExceptT.lift p : Attempt R W ε α) result :=
  Program.Keeps.bind h fun _ ha => Program.Keeps.pure ha

/-- What an attempt comes to, error or not, as a result. -/
theorem lift_run {failed' : δ → Prop} (h : KeepsOr answers inv failed x result) :
    KeepsOr answers inv failed' (ExceptT.lift x.run : Attempt R W δ (Except ε α))
      (OkOr failed result) :=
  lift h

theorem withError {f : ε → δ} {failed' : δ → Prop} (h : KeepsOr answers inv failed x result)
    (hf : ∀ e, failed e → failed' (f e)) :
    KeepsOr answers inv failed' (withError f x) result := by
  refine Program.Keeps.bind h fun res hres => ?_
  cases res with
  | ok a => exact Program.Keeps.pure hres
  | error e => exact Program.Keeps.pure (hf e hres)

end KeepsOr

namespace Keeps

variable {answers : Answers σ R W} {inv : σ → Prop} {x : Attempt R W ε α} {result : α → Prop}

/-- Nothing is asked of what an attempt comes to. -/
theorem of_program (h : x.run.Keeps answers inv fun _ => True) :
    Keeps answers inv x fun _ => True :=
  Program.Keeps.mono h fun res _ => okOr_true res

theorem of_runs_ok (h : Keeps answers inv x result) {w w' : World σ} (hw : inv w.storage) {a : α}
    (hruns : x.run.Runs answers w (.ok a) w') : result a :=
  (KeepsOr.of_runs h hw hruns).2

theorem withError {f : ε → δ} (h : Keeps answers inv x result) :
    Keeps answers inv (withError f x) result :=
  KeepsOr.withError h fun _ _ => trivial

end Keeps

namespace Ensures

variable {answers : Answers σ R W} {w : World σ} {failed : ε → World σ → Prop}

/-- What attempts ensure that leave the storage as it is, as a logic. -/
def looking (answers : Answers σ R W) (w : World σ) (failed : ε → World σ → Prop) :
    Logic (ExceptT ε (Program R W)) where
  Holds x result := Ensures answers w x (fun a w' => result a ∧ w' = w) failed
  pure ha := ⟨ha, rfl⟩
  bind h hf := by
    refine bind_iff.mpr (h.mono ?_ fun _ _ hfailed => hfailed)
    rintro a w' ⟨ha, rfl⟩
    exact hf a ha

/-- Going through a list with attempts that leave the storage as it is. -/
theorem mapM {xs : List α} {f : α → Attempt R W ε β} {P : α → β → Prop}
    (h : ∀ a ∈ xs, Ensures answers w (f a) (fun b w' => P a b ∧ w' = w) failed) :
    Ensures answers w (xs.mapM f) (fun bs w' => List.Forall₂ P xs bs ∧ w' = w) failed :=
  (looking answers w failed).mapM h

end Ensures

/-! ## Calls -/

/-- A call keeps a property of the storage, also if it is a write that stops short. -/
def Call.Keeps (backend : Backend σ R W) (inv : σ → Prop) : Call R W → Prop
  | .write writer data => ∀ n s, inv s → inv (backend (.write writer (data.take n)) s).2
  | c => ∀ s, inv s → inv (backend c s).2

section Calls

variable {backend : Backend σ R W} {inv : σ → Prop} {refusal : Refusal R W} {c : Call R W}

theorem Call.Keeps.of_forall (h : ∀ (c : Call R W) s, inv s → inv (backend c s).2) (c : Call R W) :
    c.Keeps backend inv := by
  cases c with
  | write writer data => exact fun n => h (.write writer (data.take n))
  | _ => exact h _

/-- What a call keeps, it keeps also if it is refused. -/
theorem Call.Keeps.of_unreliable {s s' : σ} {reply : c.Reply} (hc : c.Keeps backend inv)
    (hs : inv s) (h : unreliable backend refusal c s reply s') : inv s' := by
  have hrefused : ∀ {α : Type} {refused : IoError → Prop} {done : Except IoError α × σ}
      {reply : Except IoError α}, inv done.2 → OrRefused refused done s reply s' → inv s' := by
    rintro α refused done reply hdone (rfl | ⟨e, -, -, rfl⟩)
    · exact hdone
    · exact hs
  cases c with
  | readDir path =>
    obtain ⟨listed, hanswer, -⟩ := h
    exact hrefused (hc s hs) hanswer
  | write writer data =>
    rcases h with heq | ⟨e, -, -, ⟨-, rfl⟩ | ⟨n, written, heq⟩⟩
    · have hdone := hc data.length s hs
      rw [List.take_length, heq] at hdone
      exact hdone
    · exact hs
    · have hcut := hc n s hs
      rw [heq] at hcut
      exact hcut
  | bytesLeft reader =>
    have hdone := hc s hs
    rw [show backend (.bytesLeft reader) s = (reply, s') from h] at hdone
    exact hdone
  | depthBound =>
    have hdone := hc s hs
    rw [show backend .depthBound s = (reply, s') from h] at hdone
    exact hdone
  | _ => exact hrefused (hc s hs) h

theorem keeps_call (hc : c.Keeps backend inv) :
    (Program.call c .done).Keeps (unreliable backend refusal) inv fun _ => True :=
  .call fun _ _ _ hs hanswer => ⟨hc.of_unreliable hs hanswer, trivial⟩

end Calls

/-! ## The storage in memory -/

/-- A change that fails leaves everything as it was. -/
theorem Memory.inv_change (inv : Memory → Prop) {m : Memory} {a : α}
    {result : Except IoError Memory} (h : inv m) (hresult : ∀ m', result = .ok m' → inv m') :
    inv (m.change a result).2 := by
  cases result with
  | ok m' => exact hresult m' rfl
  | error x => exact h

theorem Memory.change_eq_ok {m : Memory} {a b : α} {result : Except IoError Memory}
    (h : (m.change a result).1 = .ok b) : b = a := by
  cases result with
  | ok m' => exact (Except.ok.inj h).symm
  | error x => cases h

/-- The call only looks. -/
def Call.Looks : Call R W → Prop
  | .create _ | .openWrite _ | .createDirAll _ | .removeAll _ | .rename _ _ | .write _ _ => False
  | _ => True

section Memory

variable {inv : Memory → Prop} {refusal : Refusal Bytes Key} {path : NativePath}

theorem Call.Looks.keeps {c : Call Bytes Key} (hc : c.Looks) : c.Keeps Memory.backend inv := by
  cases c with
  | create | openWrite | createDirAll | removeAll | rename | write => exact hc.elim
  | _ => exact fun _ hs => hs

/-! ### Looking -/

theorem keeps_look {c : Call Bytes Key} (hc : c.Looks) :
    (Program.call c .done).Keeps (unreliable Memory.backend refusal) inv fun _ => True :=
  keeps_call hc.keeps

theorem keeps_stat :
    Keeps (unreliable Memory.backend refusal) inv (stat path) fun _ => True :=
  .of_program (keeps_look (c := .stat path) trivial)

theorem keeps_openRead :
    Keeps (unreliable Memory.backend refusal) inv (openRead path) fun _ => True :=
  .of_program (keeps_look (c := .openRead path) trivial)

theorem keeps_read {reader : Bytes} {n : Nat} :
    Keeps (unreliable Memory.backend refusal) inv (read reader n) fun _ => True :=
  .of_program (keeps_look (c := .read reader n) trivial)

theorem keeps_readDir :
    Keeps (unreliable Memory.backend refusal) inv (readDir path) fun _ => True :=
  .of_program (keeps_look (c := .readDir path) trivial)

theorem keeps_shutdown {writer : Key} :
    Keeps (unreliable Memory.backend refusal) inv (shutdown writer) fun _ => True :=
  .of_program (keeps_look (c := .shutdown writer) trivial)

theorem keeps_bytesLeft {reader : Bytes} :
    (bytesLeft reader : Program Bytes Key Nat).Keeps (unreliable Memory.backend refusal) inv
      fun _ => True :=
  keeps_look (c := .bytesLeft reader) trivial

theorem keeps_depthBound :
    (depthBound : Program Bytes Key Nat).Keeps (unreliable Memory.backend refusal) inv
      fun _ => True :=
  keeps_look (c := .depthBound) trivial

/-! ### Changing -/

theorem keeps_createDirAll (h : Call.Keeps Memory.backend inv (.createDirAll path)) :
    Keeps (unreliable Memory.backend refusal) inv (createDirAll path) fun _ => True :=
  .of_program (keeps_call h)

theorem keeps_removeAll (h : Call.Keeps Memory.backend inv (.removeAll path)) :
    Keeps (unreliable Memory.backend refusal) inv (removeAll path) fun _ => True :=
  .of_program (keeps_call h)

theorem keeps_rename {target : NativePath} (h : Call.Keeps Memory.backend inv (.rename path target)) :
    Keeps (unreliable Memory.backend refusal) inv (rename path target) fun _ => True :=
  .of_program (keeps_call h)

/-- The writer of a file that is opened is its key. -/
theorem okOr_of_orRefused_change {refused : IoError → Prop} {m m' : Memory} {key : Key}
    {result : Except IoError Memory} {reply : Except IoError Key}
    (h : OrRefused refused (m.change key result) m reply m') :
    OkOr (fun _ => True) (· = key) reply := by
  rcases h with hdone | ⟨x, -, rfl, -⟩
  · cases reply with
    | ok writer => exact Memory.change_eq_ok (congrArg Prod.fst hdone)
    | error x => trivial
  · trivial

theorem keeps_create (h : Call.Keeps Memory.backend inv (.create path)) :
    Keeps (unreliable Memory.backend refusal) inv (create path) (· = keyOf path) :=
  Program.Keeps.call (c := .create path) fun _ _ _ hm hanswer =>
    ⟨h.of_unreliable hm hanswer, okOr_of_orRefused_change hanswer⟩

theorem keeps_openWrite (h : Call.Keeps Memory.backend inv (.openWrite path)) :
    Keeps (unreliable Memory.backend refusal) inv (openWrite path) (· = keyOf path) :=
  Program.Keeps.call (c := .openWrite path) fun _ _ _ hm hanswer =>
    ⟨h.of_unreliable hm hanswer, okOr_of_orRefused_change hanswer⟩

theorem keeps_writeOnce {writer : Key} {data : Bytes}
    (h : Call.Keeps Memory.backend inv (.write writer data)) :
    Keeps (unreliable Memory.backend refusal) inv (writeOnce writer data) fun _ => True := by
  have hwrite : (write writer data).Keeps (unreliable Memory.backend refusal) inv
      fun _ => True := by
    unfold write
    split
    · exact .pure trivial
    · exact keeps_call h
  exact .of_program (hwrite.bind fun _ _ => .pure trivial)

/-! ### Whole files -/

theorem keeps_foldChunks {f : β → Bytes → β} (n : Nat) (b : β) (reader : Bytes) :
    Keeps (unreliable Memory.backend refusal) inv (foldChunks f n b reader) fun _ => True := by
  induction n generalizing b reader with
  | zero => exact .pure trivial
  | succ n ih =>
    refine keeps_read.bind fun (bytes, rest) _ => ?_
    dsimp only
    split
    · exact .pure trivial
    · exact ih _ _

theorem keeps_foldReader {f : β → Bytes → β} (b : β) (reader : Bytes) :
    Keeps (unreliable Memory.backend refusal) inv (foldReader f b reader) fun _ => True :=
  (KeepsOr.lift keeps_bytesLeft).bind fun _ _ => keeps_foldChunks _ _ _

theorem keeps_contentOf :
    Keeps (unreliable Memory.backend refusal) inv (contentOf path) fun _ => True :=
  keeps_openRead.bind fun _ _ => keeps_foldReader _ _

theorem keeps_putContent {data : Bytes} (hcreate : Call.Keeps Memory.backend inv (.create path))
    (hwrite : Call.Keeps Memory.backend inv (.write (keyOf path) data)) :
    Keeps (unreliable Memory.backend refusal) inv (putContent path data) fun _ => True := by
  refine (keeps_create hcreate).bind fun writer hwriter => ?_
  subst hwriter
  exact (keeps_writeOnce hwrite).bind fun _ _ => keeps_shutdown

end Memory

end SyncEndpoint.Storage
