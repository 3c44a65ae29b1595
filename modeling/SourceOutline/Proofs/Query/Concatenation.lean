import SourceOutline.Proofs.Query.Search
import SourceOutline.Query.Compile

/-! The texts of two queries, one after the other. A line feed ends whatever the lexer is inside of,
and a pattern that is read to its end looks at what follows only for tags and quantities, with which
no query begins. So where the first text ends its last line, both together hold the patterns of the
first and then those of the second, and find what either finds. -/
namespace SourceOutline.Query

/-! Lexing. Offsets are carried along, but nothing depends on them. -/

def LexState.placeless : LexState → LexState
  | .word _ letters => .word 0 letters
  | .tag _ letters => .tag 0 letters
  | s => s

theorem lexIdle_placeless (n : Nat) (c : Char) :
    (lexIdle n c).1.placeless = (lexIdle 0 c).1.placeless ∧
      (lexIdle n c).2.map (·.token) = (lexIdle 0 c).2.map (·.token) := by
  unfold lexIdle
  split_ifs <;> exact ⟨rfl, rfl⟩

theorem lexStep_placeless (s : LexState) (n : Nat) (c : Char) :
    (lexStep s n c).1.placeless = (lexStep s.placeless 0 c).1.placeless ∧
      (lexStep s n c).2.map (·.token) = (lexStep s.placeless 0 c).2.map (·.token) := by
  obtain ⟨hstate, htokens⟩ := lexIdle_placeless n c
  cases s with
  | idle => exact ⟨hstate, htokens⟩
  | comment =>
    simp only [lexStep, LexState.placeless]
    split_ifs
    · exact ⟨rfl, rfl⟩
    · exact ⟨hstate, htokens⟩
    · exact ⟨rfl, rfl⟩
  | word k letters =>
    simp only [lexStep, LexState.placeless]
    split_ifs
    · exact ⟨rfl, rfl⟩
    · exact ⟨hstate, by simp [wordToken, htokens]⟩
  | tag k letters =>
    simp only [lexStep, LexState.placeless]
    split_ifs
    · exact ⟨rfl, rfl⟩
    · exact ⟨hstate, by simp [tagToken, htokens]⟩

theorem lexFrom_cons (s : LexState) (n : Nat) (c : Char) (cs : List Char) :
    lexFrom s n (c :: cs) = (lexStep s n c).2 ++ lexFrom (lexStep s n c).1 (n + c.utf8Size) cs := by
  cases s <;> rfl

theorem map_token_lexFrom (s : LexState) (n : Nat) (cs : List Char) :
    (lexFrom s n cs).map (·.token) = (lexFrom s.placeless 0 cs).map (·.token) := by
  induction cs generalizing s n with
  | nil => cases s <;> rfl
  | cons c cs ih =>
    obtain ⟨hstate, htokens⟩ := lexStep_placeless s n c
    rw [lexFrom_cons, lexFrom_cons, List.map_append, List.map_append, htokens,
      ih (lexStep s n c).1, hstate, ← ih (lexStep s.placeless 0 c).1]

theorem lexStep_feed (s : LexState) (n : Nat) : (lexStep s n '\n').1 = .idle := by
  cases s with
  | idle => rfl
  | comment => rfl
  | word k letters => rfl
  | tag k letters => cases letters <;> rfl

theorem lexFrom_append_feed (s : LexState) (n : Nat) (cs more : List Char) :
    ∃ m, lexFrom s n (cs ++ '\n' :: more) = lexFrom s n (cs ++ ['\n']) ++ lexFrom .idle m more := by
  induction cs generalizing s n with
  | nil =>
    refine ⟨n + '\n'.utf8Size, ?_⟩
    simp only [List.nil_append, lexFrom_cons, lexStep_feed]
    simp [lexFrom]
  | cons c cs ih =>
    obtain ⟨m, hm⟩ := ih (lexStep s n c).1 (n + c.utf8Size)
    exact ⟨m, by rw [List.cons_append, List.cons_append, lexFrom_cons, lexFrom_cons, hm,
      List.append_assoc]⟩

theorem map_token_tokens_append {cs : List Char} (hfeed : cs.getLast? = some '\n')
    (more : List Char) :
    (tokens (cs ++ more)).map (·.token) = (tokens cs).map
      (·.token) ++ (tokens more).map (·.token) := by
  obtain ⟨before, rfl⟩ := List.getLast?_eq_some_iff.mp hfeed
  obtain ⟨m, hm⟩ := lexFrom_append_feed .idle 0 before more
  unfold tokens
  rw [List.append_assoc, List.singleton_append, hm, List.map_append, map_token_lexFrom .idle m]
  rfl

/-! Reading. What is read from some tokens is read again where others follow and more steps are
allowed. -/

/-- What the first computation answers, the second answers too, up to a relation. -/
def Carries (R : α → β → Prop) (x : Except ε α) (y : Except ε β) : Prop :=
  ∀ a, x = .ok a → ∃ b, y = .ok b ∧ R a b

namespace Carries

variable {R : α → β → Prop} {S : γ → δ → Prop} {x : Except ε α} {y : Except ε β}

theorem error (e : ε) (y : Except ε β) : Carries R (.error e) y := fun _ h => nomatch h

theorem ok {a : α} {b : β} (h : R a b) : Carries R (.ok a : Except ε α) (.ok b : Except ε β) := by
  intro a' ha
  cases ha
  exact ⟨b, rfl, h⟩

theorem bind {f : α → Except ε γ} {g : β → Except ε δ} (h : Carries R x y)
    (hnext : ∀ a b, R a b → Carries S (f a) (g b)) : Carries S (x.bind f) (y.bind g) := by
  intro c hc
  cases x with
  | error e => cases hc
  | ok a =>
    obtain ⟨b, rfl, hab⟩ := h a rfl
    exact hnext a b hab c hc

theorem map {f : α → γ} {g : β → δ} (h : Carries R x y) (hnext : ∀ a b, R a b → S (f a) (g b)) :
    Carries S (x.map f) (y.map g) := by
  intro c hc
  cases x with
  | error e => cases hc
  | ok a =>
    obtain ⟨b, rfl, hab⟩ := h a rfl
    cases hc
    exact ⟨g b, rfl, hnext a b hab⟩

end Carries

def startsAnew : List Token → Bool
  | .tag _ :: _ => false
  | .sign c :: _ => !isQuantity c
  | _ => true

/-- The same tokens, wherever they stand, and then some that leave the patterns before them as they
are. -/
structure Extends (more : List Token) (ts us : List Placed) : Prop where
  map_token : us.map (·.token) = ts.map (·.token) ++ more
  anew : startsAnew more

def SameThen (more : List Token) (a b : α × List Placed) : Prop := a.1 = b.1 ∧ Extends more a.2 b.2

section Extending

variable {v : Vocabulary} {stop stop' : Nat} {more : List Token} {t : Placed} {ts us : List Placed}

theorem Extends.exists_cons (h : Extends more (t :: ts) us) :
    ∃ offset us', us = ⟨t.token, offset⟩ :: us' ∧ Extends more ts us' := by
  cases us with
  | nil => cases h.map_token
  | cons u us =>
    obtain ⟨htoken, hrest⟩ := List.cons.inj h.map_token
    exact ⟨u.offset, us, congrArg (⟨·, u.offset⟩ :: us) htoken, hrest, h.anew⟩

theorem Extends.cons (token : Token) (offset offset' : Nat) (h : Extends more ts us) :
    Extends more (⟨token, offset⟩ :: ts) (⟨token, offset'⟩ :: us) :=
  ⟨congrArg (token :: ·) h.map_token, h.anew⟩

theorem takeTags_of_startsAnew (h : startsAnew (us.map (·.token))) :
    takeTags us = .ok ([], us) := by
  cases us with
  | nil => rfl
  | cons u us =>
    obtain ⟨token, offset⟩ := u
    cases token with
    | tag s => cases h
    | sign c =>
      have hquantity : isQuantity c = false := by simpa [startsAnew] using h
      simp [takeTags, hquantity]
    | left | right | leftBracket | rightBracket | word s => rfl

theorem carries_takeTags (h : Extends more ts us) :
    Carries (SameThen more) (takeTags ts) (takeTags us) := by
  induction ts generalizing us with
  | nil =>
    have hanew : startsAnew (us.map (·.token)) := h.map_token ▸ h.anew
    rw [takeTags_of_startsAnew hanew]
    exact .ok ⟨rfl, h⟩
  | cons t ts ih =>
    obtain ⟨offset, us, rfl, hrest⟩ := h.exists_cons
    obtain ⟨token, offset'⟩ := t
    cases token with
    | tag s =>
      simp only [takeTags]
      split
      · exact .error _ _
      · exact (ih hrest).map fun a b hab => ⟨congrArg (s :: ·) hab.1, hab.2⟩
    | sign c =>
      simp only [takeTags]
      split
      · exact ih hrest
      · exact .ok ⟨rfl, hrest.cons _ _ _⟩
    | left | right | leftBracket | rightBracket | word s => exact .ok ⟨rfl, hrest.cons _ _ _⟩

theorem carries_withTags (p : Pattern) (h : Extends more ts us) :
    Carries (Option.Rel (SameThen more)) (withTags p ts) (withTags p us) :=
  (carries_takeTags h).map fun _ _ hab => .some ⟨congrArg (addTags · p) hab.1, hab.2⟩

-- By induction on the steps of the first reading; the second has no fewer, and stops for the same
-- tokens.
mutual

theorem carries_pattern {fuel fuel' : Nat} (hfuel : fuel ≤ fuel') {ts us : List Placed}
    (h : Extends more ts us) :
    Carries (Option.Rel (SameThen more)) (pattern v stop fuel ts) (pattern v stop' fuel' us) := by
  match fuel, fuel', ts, hfuel with
  | 0, _, _, _ => exact .error _ _
  | _ + 1, _, [], _ => exact .error _ _
  | fuel + 1, fuel' + 1, t :: ts, hfuel =>
    have hfuel := Nat.le_of_succ_le_succ hfuel
    obtain ⟨offset', us, rfl, hrest⟩ := h.exists_cons
    obtain ⟨token, offset⟩ := t
    cases token with
    | right | rightBracket => exact .ok .none
    | leftBracket =>
      refine (carries_sequence hfuel hrest).bind fun a b hab => ?_
      obtain ⟨ps, rest⟩ := a
      obtain ⟨ps', rest'⟩ := b
      obtain ⟨rfl, hrest⟩ := hab
      dsimp only
      split
      · exact .error _ _
      · exact carries_withTags _ hrest
    | left => exact carries_inParentheses hfuel hrest
    | word s =>
      simp only [pattern]
      split
      · exact carries_withTags _ hrest
      · exact carries_withTags _ (hrest.cons _ _ _)
      · exact carries_inField hfuel hrest
    | tag s | sign c => exact .error _ _

theorem carries_inParentheses {fuel fuel' : Nat} (hfuel : fuel ≤ fuel') {ts us : List Placed}
    (h : Extends more ts us) :
    Carries (Option.Rel (SameThen more)) (inParentheses v stop fuel ts)
      (inParentheses v stop' fuel' us) := by
  match fuel, fuel', ts, hfuel with
  | 0, _, _, _ => exact .error _ _
  | _ + 1, _, [], _ => exact .error _ _
  | fuel + 1, fuel' + 1, t :: ts, hfuel =>
    have hfuel := Nat.le_of_succ_le_succ hfuel
    obtain ⟨offset', us, rfl, hrest⟩ := h.exists_cons
    obtain ⟨token, offset⟩ := t
    cases token with
    | word kind =>
      simp only [inParentheses]
      split
      · refine (carries_sequence hfuel hrest).bind fun a b hab => ?_
        obtain ⟨cs, rest⟩ := a
        obtain ⟨cs', rest'⟩ := b
        obtain ⟨rfl, hrest⟩ := hab
        exact carries_withTags _ hrest
      · exact .error _ _
    | left | leftBracket => exact carries_inGroup hfuel h
    | right | rightBracket | tag s | sign c => exact .error _ _

theorem carries_inGroup {fuel fuel' : Nat} (hfuel : fuel ≤ fuel') {ts us : List Placed}
    (h : Extends more ts us) :
    Carries (Option.Rel (SameThen more)) (inGroup v stop fuel ts) (inGroup v stop' fuel' us) := by
  match fuel, fuel', hfuel with
  | 0, _, _ => exact .error _ _
  | fuel + 1, fuel' + 1, hfuel =>
    refine (carries_sequence (Nat.le_of_succ_le_succ hfuel) h).bind fun a b hab => ?_
    obtain ⟨ps, rest⟩ := a
    obtain ⟨ps', rest'⟩ := b
    obtain ⟨rfl, hrest⟩ := hab
    cases ps with
    | nil => exact .error _ _
    | cons p ps => exact carries_withTags p hrest

theorem carries_inField {fuel fuel' : Nat} (hfuel : fuel ≤ fuel') {name : String}
    {offset offset' : Nat} {ts us : List Placed} (h : Extends more ts us) :
    Carries (Option.Rel (SameThen more)) (inField v stop fuel name offset ts)
      (inField v stop' fuel' name offset' us) := by
  unfold inField
  split
  · rename_i fuel _ _ _ _ ts
    obtain ⟨fuel', rfl⟩ : ∃ k, fuel' = k + 1 := ⟨fuel' - 1, by omega⟩
    obtain ⟨place, us, rfl, hrest⟩ := h.exists_cons
    refine (carries_pattern (Nat.le_of_succ_le_succ hfuel) hrest).bind fun a b hab => ?_
    cases hab with
    | none => exact .error _ _
    | some hsame =>
      rename_i a b
      obtain ⟨p, rest⟩ := a
      obtain ⟨p', rest'⟩ := b
      obtain ⟨rfl, hrest⟩ := hsame
      dsimp only
      split
      · exact .ok (.some ⟨rfl, hrest⟩)
      · exact .error _ _
  · exact .error _ _

theorem carries_sequence {fuel fuel' : Nat} (hfuel : fuel ≤ fuel') {close : Token}
    {ts us : List Placed} (h : Extends more ts us) :
    Carries (SameThen more) (sequence v stop close fuel ts) (sequence v stop' close fuel' us) := by
  match fuel, fuel', hfuel with
  | 0, _, _ => exact .error _ _
  | fuel + 1, fuel' + 1, hfuel =>
    have hfuel := Nat.le_of_succ_le_succ hfuel
    refine (carries_pattern hfuel h).bind fun a b hab => ?_
    cases hab with
    | none =>
      cases ts with
      | nil => exact .error _ _
      | cons t ts =>
        obtain ⟨offset', us, rfl, hrest⟩ := h.exists_cons
        dsimp only
        split
        · exact .ok ⟨rfl, hrest⟩
        · exact .error _ _
    | some hsame =>
      rename_i a b
      obtain ⟨p, rest⟩ := a
      obtain ⟨p', rest'⟩ := b
      obtain ⟨rfl, hrest⟩ := hsame
      exact (carries_sequence hfuel hrest).map fun _ _ hab => ⟨congrArg (p :: ·) hab.1, hab.2⟩

end

@[simp] theorem patterns_nil (fuel : Nat) : patterns v stop fuel [] = .ok [] := by
  cases fuel <;> rfl

theorem carries_patterns {base fuel fuel' : Nat} (hfuel : fuel + base ≤ fuel')
    (h : Extends more ts us) {q' : Query}
    (hend : ∀ us k, us.map (·.token) = more → base ≤ k → patterns v stop' k us = .ok q') :
    Carries (fun q both => both = q ++ q') (patterns v stop fuel ts)
      (patterns v stop' fuel' us) := by
  induction fuel generalizing fuel' ts us with
  | zero =>
    cases ts with
    | nil =>
      rw [patterns_nil, hend us fuel' h.map_token (by omega)]
      exact .ok rfl
    | cons t ts => exact .error _ _
  | succ fuel ih =>
    cases ts with
    | nil =>
      rw [patterns_nil, hend us fuel' h.map_token (by omega)]
      exact .ok rfl
    | cons t ts =>
      obtain ⟨fuel', rfl⟩ : ∃ k, fuel' = k + 1 := ⟨fuel' - 1, by omega⟩
      obtain ⟨offset', us, rfl, -⟩ := h.exists_cons
      refine (carries_pattern (by omega) h).bind fun a b hab => ?_
      cases hab with
      | none => exact .error _ _
      | some hsame =>
        exact (ih (by omega) hsame.2).map fun _ _ heq => by rw [hsame.1, heq, List.cons_append]

theorem startsAnew_of_patterns {fuel : Nat} {q : Query} (h : patterns v stop fuel ts = .ok q) :
    startsAnew (ts.map (·.token)) := by
  match fuel, ts, h with
  | _, [], _ => rfl
  | 1, _ :: _, h => cases h
  | fuel + 2, ⟨token, offset⟩ :: ts, h =>
    cases token with
    | tag s | sign c => cases h
    | left | right | leftBracket | rightBracket | word s => rfl

theorem patterns_append {fuel fuel' : Nat} {ts' : List Placed} {q q' : Query}
    (hread : patterns v stop fuel ts = .ok q) (hread' : patterns v stop' fuel' ts' = .ok q')
    (hus : us.map (·.token) = ts.map (·.token) ++ ts'.map (·.token)) (stop'' : Nat) :
    patterns v stop'' (fuel + fuel') us = .ok (q ++ q') := by
  -- the second query alone is read again wherever it stands, with nothing after it
  have hend : ∀ us k, us.map (·.token) = ts'.map (·.token) → fuel' ≤ k →
      patterns v stop'' k us = .ok q' := by
    intro us k hsame hk
    have hnothing : ∀ us k, us.map (·.token) = [] → 0 ≤ k → patterns v stop'' k us = .ok [] := by
      intro us k hnil _
      rw [List.map_eq_nil_iff.mp hnil, patterns_nil]
    obtain ⟨_, hagain, rfl⟩ := carries_patterns hk ⟨by simpa using hsame, rfl⟩ hnothing q' hread'
    rw [hagain, List.append_nil]
  obtain ⟨_, hboth, rfl⟩ :=
    carries_patterns (Nat.le_refl _) ⟨hus, startsAnew_of_patterns hread'⟩ hend q hread
  exact hboth

end Extending

theorem read_append {v : Vocabulary} {cs cs' : List Char} {q q' : Query}
    (hfeed : cs.getLast? = some '\n') (h : read v cs = .ok q) (h' : read v cs' = .ok q') :
    read v (cs ++ cs') = .ok (q ++ q') := by
  have hfuel : 4 * (cs ++ cs').length = 4 * cs.length + 4 * cs'.length := by
    rw [List.length_append, Nat.mul_add]
  unfold read
  rw [hfuel]
  exact patterns_append h h' (map_token_tokens_append hfeed cs') _

theorem read_of_compile {v : Vocabulary} {text : String} {q : Query}
    (h : compile v text 0 = .ok q) : read v text.toList = .ok q := by
  unfold compile attempt at h
  cases hread : read v text.toList with
  | error e =>
    rw [hread] at h
    cases h
  | ok q' =>
    rw [hread] at h
    exact congrArg Except.ok (Except.ok.inj h)

theorem mem_capturesOf_append {q q' : Query} {t : SyntaxTree} {c : Capture} :
    c ∈ capturesOf (search (q ++ q') t) ↔ c ∈ capturesOf (q.search t) ∨
      c ∈ capturesOf (q'.search t) := by
  simp only [mem_capturesOf_search, List.mem_append, or_and_right, exists_or, and_or_left]

end SourceOutline.Query
