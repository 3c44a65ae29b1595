import SourceOutline.Command.Run
import SourceOutline.Proofs.Settings.Endings

/-! How loading settings ends. It gives settings within their limits, or an error of the settings,
which the command reports by a message, or a fault, which ends the command. The ways to a fault are
few, and each of them is found in the sources: a file that cannot be read, a variable that is not
JSON, maps that meet on too many levels, a key that is not a text, a home directory that nobody has,
a value that cannot be printed. -/
namespace SourceOutline

def Entries.TextKeys (es : Entries) : Prop := ∀ k ∈ es.names, isTextKey k

section Keys

end Keys

def EnvironmentError.toFault : EnvironmentError → Fault
  | .unreadable sec => ⟨"SettingsError", (LoadError.environment sec).message⟩
  | .fault f => f

/-- The ways in which a file comes to a fault: it cannot be read, or making its values faults. -/
inductive SettingsFile.Faults (file : SettingsFile) (f : Fault) : Prop
  | unreadable (hstate : file.state = .unreadable f)
  | document (text : String) (hstate : file.state = .text text)
      (hread : Yaml.read text none = .error (.fault f))
  | cutShort (text : String) (cut : Fault) (hstate : file.state = .cutShort text cut)
      (hread : Yaml.read text (some cut) = .error (.fault f))

section Files

variable {file : SettingsFile} {f : Fault} {e : LoadError}

theorem SettingsFile.Faults.read (h : file.Faults f) : file.read = .error (.fault f) := by
  unfold SettingsFile.read
  cases h with
  | unreadable hstate => rw [hstate]
  | document text hstate hread =>
    rw [hstate]
    simp only [entriesOf, hread]
  | cutShort text cut hstate hread =>
    rw [hstate]
    simp only [entriesOf, hread]

end Files

structure FilesRead (repo user : SettingsFile) (o : Overrides) (r u files : Entries) : Prop where
  root : o.checkRoot = .ok ()
  repo : repo.read = .ok r
  user : user.read = .ok u
  merged : Entries.merge maxNesting u r = .ok files

inductive SourcesRead (repo user : SettingsFile) (env : Environment) (o : Overrides)
    (r u : Entries) : Entries → Prop
  | intro {e files above all : Entries} (hfiles : FilesRead repo user o r u files)
      (henv : env.settings o.rules = .ok e)
      (habove : Entries.merge maxNesting e o.settings = .ok above)
      (hall : Entries.merge maxNesting files above = .ok all) : SourcesRead repo user env o r u all

/-- The ways in which loading comes to a fault, in the order of its stages. Three of them are merges
of maps that meet on too many levels, as those do that lead back to themselves. -/
inductive LoadingFaults (h : Homes) (repo user : SettingsFile) (env : Environment) (o : Overrides) :
    Fault → Prop
  | root {f : Fault} (hroot : o.checkRoot = .error f) : LoadingFaults h repo user env o f
  | repo {f : Fault} (hroot : o.checkRoot = .ok ()) (hfile : repo.Faults f) :
      LoadingFaults h repo user env o f
  | user {f : Fault} {r : Entries} (hroot : o.checkRoot = .ok ()) (hrepo : repo.read = .ok r)
      (hfile : user.Faults f) : LoadingFaults h repo user env o f
  | files {r u : Entries} (hroot : o.checkRoot = .ok ()) (hrepo : repo.read = .ok r)
      (huser : user.read = .ok u) (hmeet : Entries.Meet maxNesting u r) :
      LoadingFaults h repo user env o .tooDeep
  | environment {e : EnvironmentError} {r u files : Entries}
      (hfiles : FilesRead repo user o r u files) (henv : env.settings o.rules = .error e) :
      LoadingFaults h repo user env o e.toFault
  | overrides {r u e files : Entries} (hfiles : FilesRead repo user o r u files)
      (henv : env.settings o.rules = .ok e) (hmeet : Entries.Meet maxNesting e o.settings) :
      LoadingFaults h repo user env o .tooDeep
  | sources {r u e files above : Entries} (hfiles : FilesRead repo user o r u files)
      (henv : env.settings o.rules = .ok e)
      (habove : Entries.merge maxNesting e o.settings = .ok above)
      (hmeet : Entries.Meet maxNesting files above) : LoadingFaults h repo user env o .tooDeep
  | key {r u all : Entries} {k : Scalar} (hread : SourcesRead repo user env o r u all)
      (hk : k ∈ r.names ∨ k ∈ u.names ∨ k ∈ o.entries.names) (hkey : isTextKey k = false) :
      LoadingFaults h repo user env o ⟨"TypeError", LoadError.keyNotText.message⟩
  | home {r u all : Entries} (hread : SourcesRead repo user env o r u all)
      (hkeys : r.TextKeys ∧ u.TextKeys ∧ o.entries.TextKeys) (hhome : h.LacksIn all) :
      LoadingFaults h repo user env o noHome
  | printing {r u all : Entries} {i : Issue} {rest : List Issue} {f : Fault}
      (hread : SourcesRead repo user env o r u all)
      (hkeys : r.TextKeys ∧ u.TextKeys ∧ o.entries.TextKeys)
      (hbad : Settings.checkStrictly h all = .bad (i :: rest))
      (hprint : i.input.printFault? maxNesting = some f) : LoadingFaults h repo user env o f

section Loading

variable {h : Homes} {repo user : SettingsFile} {env : Environment} {o : Overrides}
  {r u e files above all : Entries}

section Checks

variable {es : Entries} (hkeys : es.TextKeys)

include hkeys

end Checks

/-- Two files with the same map that leads back to itself end loading by a fault. -/
theorem LoadingFaults.of_way_back {k k' : Scalar} {v : Value} {inner : Entries}
    (hroot : o.checkRoot = .ok ()) (hrepo : repo.read = .ok r) (huser : user.read = .ok u)
    (hr : (k, v) ∈ r) (hu : u.find? k = some v) (hinner : v.entries? = some inner)
    (hback : (k', v) ∈ inner) (hfind : inner.find? k' = some v) :
    LoadingFaults h repo user env o .tooDeep :=
  .files hroot hrepo huser ⟨(k, v), hr, v, hu, Value.meet_self hinner hback hfind maxNesting⟩

end Loading

end SourceOutline
