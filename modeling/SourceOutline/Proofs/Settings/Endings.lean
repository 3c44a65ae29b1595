import SourceOutline.Proofs.Settings.Leaves

/-! How checks of settings end. A check that is bad has something to say; there is one fault only,
that of a home directory that nobody has, and only a log output can come to it; and what is good is
within its limits. -/
namespace SourceOutline

namespace Checked

variable {α β : Type} {g : Fault} {c : Checked α} {d : Checked β} {P Q : Prop}

/-- How a check can end: with the fault `g` just when `P` and with no other fault; and if it is bad,
something is wrong. -/
structure Ends (g : Fault) (c : Checked α) (P : Prop) : Prop where
  fault : ∀ f, c = .fault f ↔ f = g ∧ P
  issue : c ≠ .bad []

namespace Ends

theorem never (hfault : ∀ f, c ≠ .fault f) (hissue : c ≠ .bad []) : Ends g c False where
  fault f := by simp [hfault f]
  issue := hissue

theorem good (a : α) : Ends g (.good a) False := never nofun nofun

theorem congr (h : Ends g c P) (hiff : P ↔ Q) : Ends g c Q where
  fault f := by rw [h.fault, hiff]
  issue := h.issue

theorem not_of_ne (h : Ends g c P) (hne : ∀ f, c ≠ .fault f) : ¬P :=
  fun hP => hne g ((h.fault g).mpr ⟨rfl, hP⟩)

theorem map (h : Ends g c P) (f : α → β) : Ends g (c.map f) P where
  fault e := by
    rw [← h.fault e]
    cases c <;> simp [Checked.map]
  issue := by
    have hissue := h.issue
    cases c <;> simp_all [Checked.map]

theorem within (h : Ends g c P) (step : Step) : Ends g (c.within step) P where
  fault e := by
    rw [← h.fault e]
    cases c <;> simp [Checked.within]
  issue := by
    have hissue := h.issue
    cases c <;> simp_all [Checked.within]

theorem both (hc : Ends g c P) (hd : Ends g d Q) : Ends g (c.both d) (P ∨ Q) where
  fault f := by
    cases c with
    | fault e =>
      obtain ⟨rfl, hP⟩ := (hc.fault e).mp rfl
      simp [Checked.both, hP, eq_comm]
    | _ =>
      have hP := hc.not_of_ne fun _ h => by cases h
      cases d with
      | fault e =>
        obtain ⟨rfl, hQ⟩ := (hd.fault e).mp rfl
        simp [Checked.both, hQ, eq_comm]
      | _ =>
        have hQ := hd.not_of_ne fun _ h => by cases h
        simp [Checked.both, hP, hQ]
  issue := by
    have hissue := hc.issue
    have hissue' := hd.issue
    cases c <;> cases d <;> simp_all [Checked.both]

theorem bind {f : α → Checked β} {Q : α → Prop} (hc : Ends g c False)
    (hf : ∀ a, Ends g (f a) (Q a)) :
    Ends g (c.bind f) (∃ a, c = .good a ∧ Q a) where
  fault e := by
    cases c with
    | good a => simp [Checked.bind, (hf a).fault]
    | bad issues => simp [Checked.bind]
    | fault e' => exact ((hc.fault e').mp rfl).2.elim
  issue := by
    have hissue := hc.issue
    cases c with
    | good a => exact (hf a).issue
    | _ => simp_all [Checked.bind]

end Ends

end Checked

section Rules

variable {α : Type} {g : Fault}

end Rules

section Scalars

variable {α : Type} {g : Fault}

end Scalars

section Homes

variable {h : Homes}

def Homes.LacksHome (h : Homes) (p : Path) : Prop :=
  p.root = .relative ∧ ∃ account rest, p.parts = String.ofList ('~' :: account) :: rest ∧
    account ≠ [] ∧ h.accounts.lookup (String.ofList account) = none

def Homes.LacksOutput (h : Homes) (v : Value) : Prop :=
  ∃ fields, v.entries? = some fields ∧ ∃ destination, fields.get? "destination" = some destination ∧
    ∃ s, checkText destination = .good s ∧ s ∉ standardStreams ∧ h.LacksHome (Path.ofString s)

def Homes.LacksIn (h : Homes) (es : Entries) : Prop :=
  ∃ logging, es.get? "logging" = some logging ∧ ∃ fields, logging.entries? = some fields ∧
    ∃ outputs, fields.get? "outputs" = some outputs ∧ ∃ items, outputs.items? = some items ∧
      ∃ v ∈ items, h.LacksOutput v

end Homes

section Limits

variable {es : Entries} {name : String}

end Limits

end SourceOutline
