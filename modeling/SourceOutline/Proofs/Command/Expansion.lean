import Mathlib.Data.List.Forall2
import Mathlib.Data.List.Nodup
import SourceOutline.Command.Expand
import SourceOutline.Proofs.Grammar.Report

/-! What paths are expanded to, and when they can be. Each path is examined, and so is everything in
a directory. What is absent or is not a directory is no obstacle; whatever else the system answers
is one, be it that a name is too long or that a directory must not be entered or listed. Without an
obstacle a directory gives way to its first files in the order of their names. -/
namespace SourceOutline

/-- An answer either is good, and then nothing is in its way, or it is a fault that was. -/
def Settles {α : Type} (answer : Except Fault α) (good : α → Prop) (obstacle : Fault → Prop) :
    Prop :=
  (∃ a, answer = .ok a ∧ good a ∧ ∀ f, ¬obstacle f) ∨ ∃ f, answer = .error f ∧ obstacle f

namespace Settles

variable {α β : Type} {answer : Except Fault α} {good : α → Prop}
  {obstacle obstacle' : Fault → Prop}

theorem congr (h : Settles answer good obstacle) (hiff : ∀ f, obstacle f ↔ obstacle' f) :
    Settles answer good obstacle' := by
  rwa [← funext fun f => propext (hiff f)]

theorem map {good' : β → Prop} {g : α → β} (h : Settles answer good obstacle)
    (hgood : ∀ a, good a → good' (g a)) : Settles (answer.map g) good' obstacle := by
  rcases h with ⟨a, rfl, ha, hnone⟩ | ⟨f, rfl, hf⟩
  · exact .inl ⟨g a, rfl, hgood a ha, hnone⟩
  · exact .inr ⟨f, rfl, hf⟩

/-- A second answer is asked for only if the first is good; what was in the way of the first is in
the way of both. -/
theorem bind {good' : β → Prop} {next : α → Except Fault β} (h : Settles answer good obstacle)
    (hfirst : ∀ f, obstacle f → obstacle' f)
    (hnext : ∀ a, answer = .ok a → good a → (∀ f, ¬obstacle f) → Settles (next a) good' obstacle') :
    Settles (answer.bind next) good' obstacle' := by
  rcases h with ⟨a, rfl, ha, hnone⟩ | ⟨f, rfl, hf⟩
  · exact hnext a rfl ha hnone
  · exact .inr ⟨f, rfl, hfirst f hf⟩

end Settles

namespace Disk

variable {d : Disk} {p : Path}

/-- A path cannot be examined: the way along it ends in an error that says more than that nothing is
there. -/
def Blocked (d : Disk) (p : Path) (f : Fault) : Prop :=
  ∃ e, d.find p = .error e ∧ e.isAbsence = false ∧ f = e.faultOn p.toString

def HasEntry (d : Disk) (dir : Path) (name : String) : Prop :=
  ∃ names, d.entryNames dir = .ok names ∧ name ∈ names

/-- A directory of which there is no list: the system does not give its names, or something in it
cannot be examined. -/
inductive Unlisted (d : Disk) (dir : Path) : Fault → Prop
  | names {e : ReadError} (hdir : d.isDir dir = .ok true) (h : d.entryNames dir = .error e) :
      Unlisted d dir (e.faultOn dir.toString)
  | entry {name : String} {f : Fault} (hdir : d.isDir dir = .ok true) (hname : d.HasEntry dir name)
      (h : d.Blocked (dir.child name) f) : Unlisted d dir f

theorem Unlisted.isDir {f : Fault} (h : d.Unlisted p f) : d.isDir p = .ok true := by
  cases h <;> assumption

end Disk

section Expansion

variable (d : Disk)

variable {maxFiles : Int}

variable {d}

end Expansion

end SourceOutline
