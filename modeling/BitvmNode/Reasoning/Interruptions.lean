/-!
# Programs that can be interrupted

Each effect of a program succeeds, reports a failure or is the point where the process dies.  Which
of these happens is read from a list, and the process dies where the list ends.
-/

namespace BitvmNode.Reasoning

inductive Stop where
  | failed
  | crashed

structure World (σ : Type) where
  state : σ
  outcomes : List Bool

abbrev Interruptible (σ α : Type) := ExceptT Stop (StateM (World σ)) α

variable {σ α β : Type}

def effect (action : σ → α × σ) : Interruptible σ α := fun w =>
  match w.outcomes with
  | [] => (.error .crashed, w)
  | false :: rest => (.error .failed, ⟨w.state, rest⟩)
  | true :: rest => (.ok (action w.state).1, ⟨(action w.state).2, rest⟩)

def onFailure (m : Interruptible σ α) (handler : Interruptible σ Unit) : Interruptible σ α :=
  fun w =>
  match m w with
  | (.error .failed, w') => (handler *> throw Stop.failed : Interruptible σ α) w'
  | result => result

/-- From states with `P` the program ends with `Q` or is interrupted with `I`. -/
def Keeps (I P : σ → Prop) (m : Interruptible σ α) (Q : α → σ → Prop) : Prop :=
  ∀ w, P w.state → match m w with
    | (.ok a, w') => Q a w'.state
    | (.error _, w') => I w'.state

variable {I P : σ → Prop} {Q : α → σ → Prop} {R : β → σ → Prop} {m : Interruptible σ α}

theorem Keeps.pure {a : α} (h : ∀ s, P s → Q a s) : Keeps I P (pure a) Q := fun w hw => h w.state hw

theorem Keeps.throw {stop : Stop} (h : ∀ s, P s → I s) : Keeps I P (throw stop) Q := fun w hw =>
    h w.state hw

theorem Keeps.effect {action : σ → α × σ} (hinv : ∀ s, P s → I s)
    (h : ∀ s, P s → Q (action s).1 (action s).2) : Keeps I P (effect action) Q := by
  rintro ⟨state, outcomes⟩ hw
  match outcomes with
  | [] => exact hinv state hw
  | false :: rest => exact hinv state hw
  | true :: rest => exact h state hw

theorem Keeps.bind {f : α → Interruptible σ β} (hm : Keeps I P m Q)
    (hf : ∀ a, Keeps I (Q a) (f a) R) : Keeps I P (m >>= f) R := by
  intro w hw
  have hfirst := hm w hw
  change match ExceptT.bindCont f (m w).1 (m w).2 with
    | (.ok b, w') => R b w'.state
    | (.error _, w') => I w'.state
  match m w, hfirst with
  | (.ok a, w'), hfirst => exact hf a w' hfirst
  | (.error e, w'), hfirst => exact hfirst

theorem Keeps.read {a : σ → α} {f : α → Interruptible σ β} (hinv : ∀ s, P s → I s)
    (hf : ∀ b, Keeps I (fun s => P s ∧ a s = b) (f b) R) :
    Keeps I P (Reasoning.effect (fun s => (a s, s)) >>= f) R :=
  (Keeps.effect hinv fun _ h => ⟨h, rfl⟩).bind hf

theorem Keeps.last {action : σ → α × σ} {b : β} (hinv : ∀ s, P s → I s)
    (h : ∀ s, P s → R b (action s).2) :
    Keeps I P (Reasoning.effect action >>= fun _ => Pure.pure b) R :=
  (Keeps.effect hinv h).bind fun _ => Keeps.pure fun _ hr => hr

theorem Keeps.state (h : Keeps I P m fun _ => I) {w : World σ} (hw : P w.state) :
    I (m w).2.state := by
  have hend := h w hw
  match m w, hend with
  | (.ok _, w'), hend => exact hend
  | (.error _, w'), hend => exact hend

theorem Keeps.onFailure {F : σ → Prop} {handler : Interruptible σ Unit} (hm : Keeps F P m Q)
    (hinv : ∀ s, F s → I s) (hhandler : Keeps I F handler fun _ => I) :
    Keeps I P (onFailure m handler) Q := by
  intro w hw
  have hfirst := hm w hw
  unfold Reasoning.onFailure
  match m w, hfirst with
  | (.ok a, w'), hfirst => exact hfirst
  | (.error .crashed, w'), hfirst => exact hinv _ hfirst
  | (.error .failed, w'), hfirst =>
    exact Keeps.bind hhandler (fun _ => Keeps.throw fun _ h => h) w' hfirst

end BitvmNode.Reasoning
