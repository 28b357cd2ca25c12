/-
Which characters a written value has, and where its lines end.

A written value is made of printable basic characters and of new lines, and every new line stands
between its parts: none is inside quotes, whatever texts the value holds.  So a written value can be
cut into lines without looking at quotes.

`Phase` is what a scan over the characters knows: whether it is inside quotes, and there whether the
character before was a backslash.  `Tidy` says of a text what one may put together: the characters,
that the scan ends where it began, outside, and that it is outside at every new line.  Texts that
are tidy make a tidy text one behind the other, so a printer keeps it by its recursion alone; what
there is to prove is that a text in quotes is tidy.
-/
import LintHost.Proofs.Json.Roundtrip

namespace LintHost.Json

open LintHost.Text

/-- Where in a written value a scan is. -/
inductive Phase where
  | outside
  | inside
  | escaped
deriving DecidableEq

/-- The phase behind one more character. -/
def Phase.next : Phase → Char → Phase
  | .outside, c => if c = '"' then .inside else .outside
  | .inside, c => if c = '"' then .outside else if c = '\\' then .escaped else .inside
  | .escaped, _ => .inside

/-- The phase behind a text. -/
def Phase.after (p : Phase) (s : List Char) : Phase := s.foldl Phase.next p

/-- A character that prints, and is of the basic ones. -/
def IsPrintable (c : Char) : Prop := 0x20 ≤ c.toNat ∧ c.toNat ≤ 0x7E

instance (c : Char) : Decidable (IsPrintable c) := inferInstanceAs (Decidable (_ ∧ _))

/-- A text of printable characters. -/
def AllPrintable (s : List Char) : Prop := ∀ c ∈ s, IsPrintable c

instance (s : List Char) : Decidable (AllPrintable s) := List.decidableBAll _ s

/-- Printable characters and new lines, with balanced quotes, and the new lines outside them. -/
structure Tidy (s : List Char) : Prop where
  chars : ∀ c ∈ s, c = '\n' ∨ IsPrintable c
  balanced : Phase.outside.after s = .outside
  feeds : ∀ front back, s = front ++ '\n' :: back → Phase.outside.after front = .outside

/-! ### Putting tidy texts together -/

theorem Phase.after_append (p : Phase) (s t : List Char) :
    p.after (s ++ t) = (p.after s).after t :=
  List.foldl_append

theorem Tidy.append {s t : List Char} (hs : Tidy s) (ht : Tidy t) : Tidy (s ++ t) := by
  refine ⟨?_, ?_, ?_⟩
  · intro c hc
    rcases List.mem_append.mp hc with hc | hc
    · exact hs.chars c hc
    · exact ht.chars c hc
  · rw [Phase.after_append, hs.balanced, ht.balanced]
  · intro front back h
    rcases List.append_eq_append_iff.mp h with ⟨more, rfl, hmore⟩ | ⟨more, hfront, hmore⟩
    · rw [Phase.after_append, hs.balanced]
      exact ht.feeds more back hmore
    · cases more with
      | nil =>
        rw [List.append_nil] at hfront
        rw [← hfront]
        exact hs.balanced
      | cons c more =>
        obtain ⟨rfl, -⟩ := List.cons.inj hmore
        exact hs.feeds front more hfront

/-- The phase behind a text without quotes. -/
theorem outside_after {s : List Char} (h : '"' ∉ s) : Phase.outside.after s = .outside := by
  induction s with
  | nil => rfl
  | cons c s ih =>
    have hc : c ≠ '"' := by
      rintro rfl
      exact h (by simp)
    show (Phase.outside.next c).after s = .outside
    rw [Phase.next, if_neg hc]
    exact ih fun hs => h (by simp [hs])

theorem tidy_of_no_quote {s : List Char} (hquote : '"' ∉ s)
    (hchars : ∀ c ∈ s, c = '\n' ∨ IsPrintable c) : Tidy s := by
  refine ⟨hchars, outside_after hquote, ?_⟩
  rintro front back rfl
  exact outside_after fun hmem => hquote (by simp [hmem])

/-- A text whose new lines are outside, as none are there. -/
theorem tidy_of_no_feed {s : List Char} (hchars : AllPrintable s)
    (hbalanced : Phase.outside.after s = .outside) : Tidy s := by
  refine ⟨fun c hc => Or.inr (hchars c hc), hbalanced, ?_⟩
  rintro front back rfl
  exact absurd (hchars '\n' (by simp)) (by decide)

/-- The words and the punctuation of a value. -/
theorem tidy_word {s : List Char} (hquote : '"' ∉ s) (h : AllPrintable s) : Tidy s :=
  tidy_of_no_quote hquote fun c hc => Or.inr (h c hc)

theorem tidy_newLine (depth : Nat) : Tidy (newLine depth) := by
  have hblank : ∀ c ∈ List.replicate (2 * depth) ' ', c = ' ' := by
    intro c hc
    exact List.eq_of_mem_replicate hc
  refine tidy_of_no_quote ?_ ?_
  · intro hmem
    rcases List.mem_cons.mp hmem with h | h
    · exact absurd h (by decide)
    · exact absurd (hblank _ h) (by decide)
  · intro c hc
    rcases List.mem_cons.mp hc with rfl | h
    · exact Or.inl rfl
    · rw [hblank c h]
      exact Or.inr (by decide)

theorem tidy_integer (n : Int) : Tidy (integer n) := by
  have hdigits : ∀ c ∈ integer n, c = '-' ∨ c.isDigit = true := by
    intro c hc
    unfold integer at hc
    by_cases hn : n < 0
    · rw [if_pos hn] at hc
      rcases List.mem_cons.mp hc with hc | hc
      · exact Or.inl hc
      · exact Or.inr (isDigit_of_mem_decimal hc)
    · rw [if_neg hn] at hc
      exact Or.inr (isDigit_of_mem_decimal hc)
  refine tidy_of_no_quote ?_ ?_
  · intro hmem
    rcases hdigits _ hmem with h | h
    · exact absurd h (by decide)
    · exact absurd h (by decide)
  · intro c hc
    refine Or.inr ?_
    rcases hdigits c hc with rfl | h
    · decide
    · obtain ⟨hlow, hhigh⟩ := toNat_of_isDigit h
      exact ⟨by omega, by omega⟩

/-! ### Texts in quotes -/

/-- Characters that stand for themselves leave the scan inside. -/
theorem inside_after {s : List Char} (h : ∀ c ∈ s, c ≠ '"' ∧ c ≠ '\\') :
    Phase.inside.after s = .inside := by
  induction s with
  | nil => rfl
  | cons c s ih =>
    obtain ⟨hquote, hslash⟩ := h c (by simp)
    show (Phase.inside.next c).after s = .inside
    rw [Phase.next, if_neg hquote, if_neg hslash]
    exact ih fun d hd => h d (by simp [hd])

/-- The digits of an escape are printable, and none of them ends the quotes or escapes another. -/
theorem escapedUnit_inside {n : Nat} (h : n < 0x10000) :
    AllPrintable (escapedUnit n) ∧ Phase.inside.after (escapedUnit n) = .inside := by
  have hdigit : ∀ k < 16, IsPrintable (Nat.digitChar k) ∧ Nat.digitChar k ≠ '"' ∧
      Nat.digitChar k ≠ '\\' := by decide
  have hall : ∀ c ∈ hexadecimal 4 n, IsPrintable c ∧ c ≠ '"' ∧ c ≠ '\\' := by
    rw [hexadecimal_four h]
    simp only [List.forall_mem_cons]
    exact ⟨hdigit _ (by omega), hdigit _ (by omega), hdigit _ (by omega), hdigit _ (by omega),
      by simp⟩
  refine ⟨?_, ?_⟩
  · intro c hc
    rcases List.mem_cons.mp hc with rfl | hc
    · decide
    · rcases List.mem_cons.mp hc with rfl | hc
      · decide
      · exact (hall c hc).1
  · show Phase.inside.after (hexadecimal 4 n) = .inside
    exact inside_after fun c hc => (hall c hc).2

/-- Whichever way a character is written, it is printable, and leaves the scan inside. -/
theorem escapedChar_inside (c : Char) :
    AllPrintable (escapedChar c) ∧ Phase.inside.after (escapedChar c) = .inside := by
  have hvalid : c.toNat < 0xD800 ∨ 0xDFFF < c.toNat ∧ c.toNat < 0x110000 := c.valid
  simp only [escapedChar]
  split_ifs with hquote hslash hfeed hreturn htab hback hform hplain hshort
  · exact ⟨by decide, rfl⟩
  · exact ⟨by decide, rfl⟩
  · exact ⟨by decide, rfl⟩
  · exact ⟨by decide, rfl⟩
  · exact ⟨by decide, rfl⟩
  · exact ⟨by decide, rfl⟩
  · exact ⟨by decide, rfl⟩
  · simp only [Bool.and_eq_true, decide_eq_true_eq] at hplain
    refine ⟨?_, inside_after ?_⟩
    · intro d hd
      rw [List.mem_singleton.mp hd]
      exact ⟨hplain.1, by omega⟩
    · intro d hd
      rw [List.mem_singleton.mp hd]
      exact ⟨hquote, hslash⟩
  · exact escapedUnit_inside hshort
  · have hhigh : 0xD800 + (c.toNat - 0x10000) / 0x400 < 0x10000 := by omega
    have hlow : 0xDC00 + (c.toNat - 0x10000) % 0x400 < 0x10000 := by omega
    refine ⟨?_, ?_⟩
    · intro d hd
      rcases List.mem_append.mp hd with hd | hd
      · exact (escapedUnit_inside hhigh).1 d hd
      · exact (escapedUnit_inside hlow).1 d hd
    · rw [Phase.after_append, (escapedUnit_inside hhigh).2, (escapedUnit_inside hlow).2]

theorem tidy_quote (s : String) : Tidy (quote s) := by
  have hinside : ∀ cs : List Char, AllPrintable (cs.flatMap escapedChar) ∧
      Phase.inside.after (cs.flatMap escapedChar) = .inside := by
    intro cs
    induction cs with
    | nil => exact ⟨by decide, rfl⟩
    | cons c cs ih =>
      obtain ⟨hchars, hphase⟩ := escapedChar_inside c
      rw [List.flatMap_cons]
      refine ⟨?_, ?_⟩
      · intro d hd
        rcases List.mem_append.mp hd with hd | hd
        · exact hchars d hd
        · exact ih.1 d hd
      · rw [Phase.after_append, hphase, ih.2]
  obtain ⟨hchars, hphase⟩ := hinside s.toList
  refine tidy_of_no_feed ?_ ?_
  · intro c hc
    rcases List.mem_append.mp hc with hc | hc
    · rcases List.mem_cons.mp hc with rfl | hc
      · decide
      · exact hchars c hc
    · rw [List.mem_singleton.mp hc]
      decide
  · show Phase.inside.after (s.toList.flatMap escapedChar ++ ['"']) = _
    rw [Phase.after_append, hphase]
    rfl

/-! ### Written values -/

mutual

/-- **A written value is tidy.** -/
theorem tidy_writeAt : ∀ (j : Json) (depth : Nat), Exact j → Tidy (writeAt depth j)
  | .null, depth, _ => by
    rw [writeAt]
    exact tidy_word (by decide) (by decide)
  | .bool true, depth, _ => by
    rw [writeAt]
    exact tidy_word (by decide) (by decide)
  | .bool false, depth, _ => by
    rw [writeAt]
    exact tidy_word (by decide) (by decide)
  | .int n, depth, _ => by
    rw [writeAt]
    exact tidy_integer n
  | .float x, depth, hj => by
    rw [Exact] at hj
    exact hj.elim
  | .str s, depth, _ => by
    rw [writeAt]
    exact tidy_quote s
  | .arr [], depth, _ => by
    rw [writeAt]
    exact tidy_word (by decide) (by decide)
  | .arr (x :: xs), depth, hj => by
    obtain ⟨hx, hxs⟩ : Exact x ∧ ExactItems xs := by rwa [Exact, ExactItems] at hj
    have hopen : Tidy ['['] := tidy_word (by decide) (by decide)
    have hclose : Tidy [']'] := tidy_word (by decide) (by decide)
    have hfirst := (hopen.append (tidy_newLine (depth + 1))).append (tidy_writeAt x (depth + 1) hx)
    have hitems := hfirst.append (tidy_writeItems xs (depth + 1) hxs)
    rw [writeAt]
    exact (hitems.append (tidy_newLine depth)).append hclose
  | .obj [], depth, _ => by
    rw [writeAt]
    exact tidy_word (by decide) (by decide)
  | .obj ((k, x) :: fs), depth, hj => by
    obtain ⟨-, hx, hfs⟩ :
        (((k, x) :: fs).map Prod.fst).Nodup ∧ Exact x ∧ ExactFields fs := by
      rwa [Exact, ExactFields] at hj
    have hopen : Tidy ['{'] := tidy_word (by decide) (by decide)
    have hcolon : Tidy [':', ' '] := tidy_word (by decide) (by decide)
    have hclose : Tidy ['}'] := tidy_word (by decide) (by decide)
    have hname := (hopen.append (tidy_newLine (depth + 1))).append (tidy_quote k)
    have hfirst := hname.append (hcolon.append (tidy_writeAt x (depth + 1) hx))
    have hfields := hfirst.append (tidy_writeFields fs (depth + 1) hfs)
    rw [writeAt]
    exact (hfields.append (tidy_newLine depth)).append hclose

theorem tidy_writeItems : ∀ (xs : List Json) (depth : Nat), ExactItems xs →
    Tidy (writeItems depth xs)
  | [], depth, _ => by
    rw [writeItems]
    exact tidy_word (by decide) (by decide)
  | x :: xs, depth, hxs => by
    obtain ⟨hx, hxs⟩ : Exact x ∧ ExactItems xs := by rwa [ExactItems] at hxs
    have hcomma : Tidy [','] := tidy_word (by decide) (by decide)
    have hfirst := (hcomma.append (tidy_newLine depth)).append (tidy_writeAt x depth hx)
    rw [writeItems]
    exact hfirst.append (tidy_writeItems xs depth hxs)

theorem tidy_writeFields : ∀ (fs : List (String × Json)) (depth : Nat), ExactFields fs →
    Tidy (writeFields depth fs)
  | [], depth, _ => by
    rw [writeFields]
    exact tidy_word (by decide) (by decide)
  | (k, x) :: fs, depth, hfs => by
    obtain ⟨hx, hfs⟩ : Exact x ∧ ExactFields fs := by rwa [ExactFields] at hfs
    have hcomma : Tidy [','] := tidy_word (by decide) (by decide)
    have hcolon : Tidy [':', ' '] := tidy_word (by decide) (by decide)
    have hname := (hcomma.append (tidy_newLine depth)).append (tidy_quote k)
    have hfirst := hname.append (hcolon.append (tidy_writeAt x depth hx))
    rw [writeFields]
    exact hfirst.append (tidy_writeFields fs depth hfs)

end

end LintHost.Json
