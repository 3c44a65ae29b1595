import SourceOutline.Outline.Format
import SourceOutline.Proofs.Text.DecodedLines

/-! Reading outlines back. A line of a listing is two numbers and a label, and the label takes the
rest of the line, so nothing in it can be mistaken for a part of the form. The first character of a
section's body tells apart what it is: a digit for definitions, a bracket for an error, a letter for
the note that there is nothing to list. -/
namespace SourceOutline

/-- What a listing shows of a definition. Lines are counted from one. -/
structure Listed where
  start : Int
  stop : Int
  label : String
deriving DecidableEq

namespace Listed

def number? (cs : List Char) : Option (Int × List Char) :=
  match cs.span Char.isDigit with
  | ([], _) => none
  | (digits, rest) => some (Nat.ofDigitChars 10 digits 0, rest)

def ofLine? (cs : List Char) : Option Listed :=
  match number? cs with
  | some (start, '-' :: '-' :: cs) =>
    match number? cs with
    | some (stop, ' ' :: '|' :: ' ' :: label) => some ⟨start, stop, String.ofList label⟩
    | _ => none
  | _ => none

def ofLines? (cs : List Char) : Option (List Listed) :=
  if cs.isEmpty then some [] else (Text.cutAt '\n' cs).mapM ofLine?

def ofNote? : List Char → Option (String × String)
  | '[' :: cs =>
    match cs.span (· != ']') with
    | (name, ']' :: ' ' :: message) => some (String.ofList name, String.ofList message)
    | _ => none
  | _ => none

/-- Reads a file's section: what is listed in it, or the name and the message of an error. -/
def ofSection? (path : Path) (text : String) : Option (Except (String × String) (List Listed)) :=
  (text.toList.dropPrefix? ("# " ++ path.name ++ "\n").toList).bind fun body =>
    if body.head? = some '[' then (ofNote? body).map .error
    else if body = noDefinitions.toList then some (.ok [])
    else (ofLines? body).map .ok

def ofValue? : Value → Option Listed
  | .map fields =>
    match Entries.get? fields "start", Entries.get? fields "end", Entries.get? fields "label" with
    | some (.int start), some (.int stop), some (.text label) => some ⟨start, stop, label⟩
    | _, _, _ => none
  | _ => none

/-- Reads what is listed in a file's entry. -/
def ofEntry? : Value → Option (List Listed)
  | .map fields =>
    match Entries.get? fields "definitions" with
    | some (.list items) => items.mapM ofValue?
    | _ => none
  | _ => none

end Listed

def Definition.listed (d : Definition) : Listed := ⟨d.range.first + 1, d.range.last + 1, d.label⟩

theorem Definition.listed_injective : Function.Injective Definition.listed := by
  rintro ⟨⟨first, last⟩, label, hordered⟩ ⟨⟨first', last'⟩, label', hordered'⟩ h
  simp only [listed, Listed.mk.injEq] at h
  obtain ⟨hfirst, hlast, rfl⟩ := h
  cases (Int.add_left_inj 1).mp hfirst
  cases (Int.add_left_inj 1).mp hlast
  rfl

/-- A definition of which nothing is lost in a listing: it starts in the file, and its label is one
line. -/
def Definition.Printable (d : Definition) : Prop := 0 ≤ d.range.first ∧ '\n' ∉ d.label.toList

def Outcome.Printable : Outcome → Prop
  | .ok o => ∀ d ∈ o.definitions.getD [], d.Printable
  | .error _ => True

def Outcome.shown : Outcome → Except (String × String) (List Listed)
  | .ok o => .ok ((o.definitions.getD []).map Definition.listed)
  | .error e => .error (e.name, e.message)

namespace Listed

theorem mapM_map_eq_some {f : α → β} {g : β → Option γ} {h : α → γ} {as : List α}
    (hread : ∀ a ∈ as, g (f a) = some (h a)) : (as.map f).mapM g = some (as.map h) := by
  induction as with
  | nil => rfl
  | cons a as ih =>
    rw [List.map_cons, List.mapM_cons, hread a (.head _), ih fun b hb => hread b (.tail _ hb)]
    rfl

theorem toList_toString_of_nonneg {n : Int} (h : 0 ≤ n) :
    (toString n).toList = Nat.toDigits 10 n.toNat := by
  rw [Int.toString_eq_repr, Int.repr_eq_if, if_pos h, Nat.repr_eq_ofList_toDigits,
    String.toList_ofList]

theorem isDigit_of_mem {n : Nat} {c : Char} (h : c ∈ Nat.toDigits 10 n) : c.isDigit :=
  Nat.isDigit_of_mem_toDigits (by decide) (by decide) h

theorem number?_append {n : Int} (hn : 0 ≤ n) {c : Char} (hc : c.isDigit = false) (cs : List Char) :
    number? ((toString n).toList ++ c :: cs) = some (n, c :: cs) := by
  rw [toList_toString_of_nonneg hn]
  have hspan : (Nat.toDigits 10 n.toNat ++ c :: cs).span Char.isDigit =
      (Nat.toDigits 10 n.toNat, c :: cs) := by
    rw [List.span_eq_takeWhile_dropWhile, List.takeWhile_append_of_pos fun _ => isDigit_of_mem,
      List.dropWhile_append_of_pos fun _ => isDigit_of_mem,
      List.takeWhile_cons_of_neg (by simp [hc]),
      List.dropWhile_cons_of_neg (by simp [hc]), List.append_nil]
  unfold number?
  rw [hspan]
  cases hdigits : Nat.toDigits 10 n.toNat with
  | nil => exact absurd hdigits Nat.toDigits_ne_nil
  | cons d ds =>
    dsimp only
    rw [← hdigits, Nat.ofDigitChars_ten_toDigits, Int.toNat_of_nonneg hn]

theorem toList_line (d : Definition) :
    d.line.toList = (toString (d.range.first + 1)).toList ++ '-' :: '-' ::
    ((toString (d.range.last + 1)).toList ++ ' ' :: '|' :: ' ' :: d.label.toList) := by
  unfold Definition.line
  simp only [String.toList_append, List.append_assoc]
  rfl

theorem ofLine?_line {d : Definition} (h : d.Printable) :
    ofLine? d.line.toList = some d.listed := by
  obtain ⟨hfirst, -⟩ := h
  have hlast := d.ordered
  have hstart := number?_append (by omega : 0 ≤ d.range.first + 1) (by decide : '-'.isDigit = false)
  have hstop := number?_append (by omega : 0 ≤ d.range.last + 1) (by decide : ' '.isDigit = false)
  simp only [ofLine?, toList_line, hstart, hstop, String.ofList_toList, Definition.listed]

theorem feed_notMem_line {d : Definition} (h : d.Printable) : '\n' ∉ d.line.toList := by
  obtain ⟨hfirst, hlabel⟩ := h
  have hlast := d.ordered
  have hdigits : ∀ n : Nat, '\n' ∉ Nat.toDigits 10 n :=
    fun n hmem => absurd (isDigit_of_mem hmem) (by decide)
  rw [toList_line, toList_toString_of_nonneg (by omega), toList_toString_of_nonneg (by omega)]
  simp [hdigits, hlabel]

theorem head_definitionLines {d : Definition} (h : d.Printable) (ds : List Definition) :
    ∃ c cs, (definitionLines (d :: ds)).toList = c :: cs ∧ c.isDigit := by
  have hfirst := h.1
  cases hdigits : Nat.toDigits 10 (d.range.first + 1).toNat with
  | nil => exact absurd hdigits Nat.toDigits_ne_nil
  | cons c more =>
    have hmem : c ∈ Nat.toDigits 10 (d.range.first + 1).toNat := by simp [hdigits]
    have hline : ∃ rest, d.line.toList = c :: rest := by
      rw [toList_line, toList_toString_of_nonneg (by omega), hdigits]
      exact ⟨_, rfl⟩
    obtain ⟨rest, hrest⟩ := hline
    unfold definitionLines
    rw [String.toList_intercalate, List.map_cons, List.map_cons, hrest]
    cases ds with
    | nil => exact ⟨c, rest, by simp, isDigit_of_mem hmem⟩
    | cons d' ds => exact ⟨c, _, rfl, isDigit_of_mem hmem⟩

theorem ofLines?_definitionLines {ds : List Definition} (h : ∀ d ∈ ds, d.Printable) :
    ofLines? (definitionLines ds).toList = some (ds.map Definition.listed) := by
  cases ds with
  | nil => rfl
  | cons d ds =>
    obtain ⟨c, cs, hcs, -⟩ := head_definitionLines (h d (.head _)) ds
    have hlines : Text.cutAt '\n' (definitionLines (d :: ds)).toList =
        (d :: ds).map (·.line.toList) := by
      unfold definitionLines
      rw [Text.cutAt_eq_splitOn, String.toList_intercalate, List.map_map]
      refine List.splitOn_intercalate '\n' (fun line hline => ?_) (by simp)
      obtain ⟨e, he, rfl⟩ := List.mem_map.mp hline
      exact feed_notMem_line (h e he)
    unfold ofLines?
    rw [if_neg (by simp [hcs]), hlines]
    exact mapM_map_eq_some fun e he => ofLine?_line (h e he)

theorem toList_body_error (e : OutlineError) :
    (Outcome.body (.error e)).toList =
      '[' :: (e.name.toList ++ ']' :: ' ' :: e.message.toList) := by
  unfold Outcome.body
  simp only [String.toList_append, List.append_assoc]
  rfl

theorem ofNote?_body (e : OutlineError) :
    ofNote? (Outcome.body (.error e)).toList = some (e.name, e.message) := by
  have hname : ∀ c ∈ e.name.toList, (c != ']') = true := by
    rw [OutlineError.name_eq]
    cases e.code <;> simp [ErrorCode.name]
  have hspan : (e.name.toList ++ ']' :: ' ' :: e.message.toList).span (· != ']') =
      (e.name.toList, ']' :: ' ' :: e.message.toList) := by
    rw [List.span_eq_takeWhile_dropWhile, List.takeWhile_append_of_pos hname,
      List.dropWhile_append_of_pos hname]
    simp
  rw [toList_body_error, ofNote?, hspan]
  simp

theorem ofSection?_section (path : Path) {outcome : Outcome} (h : outcome.Printable) :
    ofSection? path (outcome.section path) = some outcome.shown := by
  have hbody : (outcome.section path).toList.dropPrefix? ("# " ++ path.name ++ "\n").toList =
      some outcome.body.toList :=
    List.dropPrefix?_eq_some_iff.mpr ⟨_, String.toList_append, by simp⟩
  unfold ofSection?
  rw [hbody, Option.bind_some]
  cases outcome with
  | error e =>
    have hhead : (Outcome.body (.error e)).toList.head? = some '[' := by
      rw [toList_body_error, List.head?_cons]
    rw [if_pos hhead, ofNote?_body]
    rfl
  | ok o =>
    have hshown : Outcome.shown (.ok o) = .ok ((o.definitions.getD []).map Definition.listed) := rfl
    have hprinted : Outcome.body (.ok o) =
        if o.found then definitionLines (o.definitions.getD []) else noDefinitions := rfl
    have hds : ∀ d ∈ o.definitions.getD [], d.Printable := h
    unfold Outline.found at hprinted
    rw [hshown, hprinted]
    generalize o.definitions.getD [] = ds at hds
    cases ds with
    | nil => rfl
    | cons d ds =>
      -- a digit stands first, so the body is neither an error nor the note
      obtain ⟨c, cs, hcs, hdigit⟩ := head_definitionLines (hds d (.head _)) ds
      have hlines := ofLines?_definitionLines hds
      simp only [List.isEmpty_cons, Bool.not_false, if_true]
      rw [hcs] at hlines ⊢
      rw [if_neg, if_neg, hlines]
      · rfl
      · intro hnote
        cases (List.cons.inj hnote).1
        exact absurd hdigit (by decide)
      · intro hbracket
        cases Option.some.inj hbracket
        exact absurd hdigit (by decide)

theorem ofValue?_toValue (d : Definition) : ofValue? d.toValue = some d.listed := rfl

theorem ofEntry?_entry (path : Path) (o : Outline) :
    ofEntry? (Outcome.entry path (.ok o)) = some ((o.definitions.getD []).map Definition.listed) :=
  mapM_map_eq_some fun d _ => ofValue?_toValue d

end Listed

theorem Text.mem_of_mem_trim {c : Char} {s : String} (h : c ∈ (Text.trim s).toList) :
    c ∈ s.toList := by
  rw [toList_trim] at h
  unfold trimChars trimBy dropRight at h
  rw [List.mem_reverse] at h
  exact (List.dropWhile_sublist _).mem (List.mem_reverse.mp ((List.dropWhile_sublist _).mem h))

theorem printable_of_synthesize {captures : List Capture} {text : String} {minLines : Int}
    {test : LineTest} {ds : Option (List Definition)} (hstart : ∀ c ∈ captures, 0 ≤ c.span.first)
    (h : synthesize captures (Text.lines text) minLines test = .ok ds) :
    ∀ d ∈ ds.getD [], d.Printable := by
  intro d hd
  obtain ⟨⟨c, hc, hrange⟩, hlabel⟩ := of_mem_synthesize h d hd
  have hfirst : 0 ≤ d.range.first := hrange ▸ hstart c hc
  rw [labelAt_of_nonneg _ hfirst] at hlabel
  refine ⟨hfirst, fun hfeed => ?_⟩
  rw [← Except.ok.inj hlabel] at hfeed
  have hline := Text.mem_of_mem_trim hfeed
  rw [List.getD_eq_getElem?_getD] at hline
  cases hget : (Text.lines text)[d.range.first.toNat]? with
  | none =>
    rw [hget] at hline
    simp at hline
  | some line =>
    rw [hget] at hline
    exact Text.feed_notMem_lines (List.mem_of_getElem? hget) hline

/-- Listings lose nothing. Definitions can be told from their lines, and what a file's outcome shows
from its section; what is read from the section is what stands in the entry for programs; and every
outline made from the lines of a text is of this kind. -/
theorem listings_lose_nothing (path : Path) :
    (∀ a b : List Definition, (∀ d ∈ a, d.Printable) → (∀ d ∈ b, d.Printable) →
      definitionLines a = definitionLines b → a = b) ∧
    (∀ a b : Outcome, a.Printable → b.Printable → a.section path = b.section path →
      (∃ o o', a = .ok o ∧ b = .ok o' ∧ o.definitions.getD [] = o'.definitions.getD []) ∨
        ∃ e e', a = .error e ∧ b = .error e' ∧ e.name = e'.name ∧ e.message = e'.message) ∧
    (∀ o : Outline, (∀ d ∈ o.definitions.getD [], d.Printable) →
      let listed := (o.definitions.getD []).map Definition.listed
      Listed.ofSection? path (Outcome.section path (.ok o)) = some (.ok listed) ∧
        Listed.ofEntry? (Outcome.entry path (.ok o)) = some listed) ∧
    ∀ (captures : List Capture) (text : String) (minLines : Int) (test : LineTest)
      (ds : Option (List Definition)),
      (∀ c ∈ captures, 0 ≤ c.span.first) →
      synthesize captures (Text.lines text) minLines test = .ok ds →
        ∀ d ∈ ds.getD [], d.Printable := by
  refine ⟨fun a b ha hb h => ?_, fun a b ha hb h => ?_, fun o ho => ?_,
    fun _ _ _ _ _ => printable_of_synthesize⟩
  · have hlisted :=
      (Listed.ofLines?_definitionLines ha).symm.trans (h ▸ Listed.ofLines?_definitionLines hb)
    exact List.map_injective_iff.mpr Definition.listed_injective (Option.some.inj hlisted)
  · have hshown : a.shown = b.shown :=
      Option.some.inj
        ((Listed.ofSection?_section path ha).symm.trans (h ▸ Listed.ofSection?_section path hb))
    cases a with
    | ok o =>
      cases b with
      | ok o' =>
        have hlisted := Except.ok.inj hshown
        exact .inl ⟨o, o', rfl, rfl, List.map_injective_iff.mpr Definition.listed_injective hlisted⟩
      | error e' => cases hshown
    | error e =>
      cases b with
      | ok o' => cases hshown
      | error e' =>
        obtain ⟨hname, hmessage⟩ := Prod.mk.inj (Except.error.inj hshown)
        exact .inr ⟨e, e', rfl, rfl, hname, hmessage⟩
  · have hprintable : Outcome.Printable (.ok o) := ho
    exact ⟨Listed.ofSection?_section path hprintable, Listed.ofEntry?_entry path o⟩

theorem listings_lose_nothing_misleading :
    let path := Path.ofString "src/a.py"
    let captures : List Capture := [⟨"definition.class", ⟨0, 2⟩, none, none⟩]
    let d : Definition := ⟨⟨0, 2⟩, "2--3 | [x]", by decide⟩
    let outcome : Outcome := .ok ⟨path, "python", some [d]⟩
    (∀ c ∈ captures, 0 ≤ c.span.first) ∧
      synthesize captures (Text.lines "2--3 | [x]\r\n\n# b\n") 2
        InlineMarkup.test = .ok (some [d]) ∧
      Listed.ofSection? path (outcome.section path) = some (.ok [⟨1, 3, "2--3 | [x]"⟩]) ∧
      definitionLines [d] ≠ definitionLines [d, d] ∧
      outcome.section path ≠ Outcome.section path (.error (.parse (.text "2--3 | [x]") .null)) := by
  intro path captures d outcome
  have hstart : ∀ c ∈ captures, 0 ≤ c.span.first := by decide
  have houtline : synthesize captures (Text.lines "2--3 | [x]\r\n\n# b\n") 2 InlineMarkup.test =
      .ok (some [d]) := by cbv
  obtain ⟨hlines, hsections, hread, hprintable⟩ := listings_lose_nothing path
  have hd : ∀ e ∈ [d], e.Printable := hprintable _ _ _ _ _ hstart houtline
  refine ⟨hstart, houtline, (hread ⟨path, "python", some [d]⟩ hd).1, fun h => ?_, fun h => ?_⟩
  · have htwice : ∀ e ∈ [d, d], e.Printable := by simpa using hd
    cases hlines _ _ hd htwice h
  · have houtcome : outcome.Printable := hd
    obtain ⟨o, o', -, herror, -⟩ | ⟨e, e', hok, -⟩ :=
      hsections outcome (.error _) houtcome trivial h
    · cases herror
    · injection hok

end SourceOutline
