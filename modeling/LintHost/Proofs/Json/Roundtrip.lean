/-
Written data, read back.

`read?` reads what `write` has written as the value it was written from, with every field in its
place: `read?_write`.  Two kinds of values are left out by `Exact`.  A floating-point number is
written with as many digits as tell it from its neighbours, which is another theory than this one;
and of two fields with one name a reader keeps a single one, so names have to differ.

The induction follows the printer, which is recursive over values, items and fields at once.  Its
fuel is the length of what is still to be read: a reader that has as much fuel as the text of a
value has characters never runs out of it, since every step down leaves a bracket or a new line
behind.
-/
import LintHost.Proofs.Json.Literal
import LintHost.Proofs.Json.Number
import Mathlib.Data.List.Nodup

namespace LintHost.Json

open LintHost.Text

mutual

/-- Written and read without loss: no floating-point numbers, and no two fields of one name. -/
def Exact : Json → Prop
  | .null => True
  | .bool _ => True
  | .int _ => True
  | .float _ => False
  | .str _ => True
  | .arr items => ExactItems items
  | .obj fields => (fields.map Prod.fst).Nodup ∧ ExactFields fields

/-- Every item is `Exact`. -/
def ExactItems : List Json → Prop
  | [] => True
  | x :: rest => Exact x ∧ ExactItems rest

/-- The value of every field is `Exact`. -/
def ExactFields : List (String × Json) → Prop
  | [] => True
  | (_, x) :: rest => Exact x ∧ ExactFields rest

end

theorem exactItems_map {α : Type} {f : α → Json} (h : ∀ x, Exact (f x)) (xs : List α) :
    ExactItems (xs.map f) := by
  induction xs with
  | nil => trivial
  | cons x xs ih => exact ⟨h x, ih⟩

/-! ### Gaps

Between the parts of a written value there are new lines and the blank behind a colon.  The reader
passes over them, and stops at the first character of the next part.
-/

theorem skipGap_newLine (depth : Nat) (s : List Char) :
    skipGap (newLine depth ++ s) = skipGap s := by
  have hall : ∀ c ∈ newLine depth, isGap c = true := by
    intro c hc
    rcases List.mem_cons.mp hc with rfl | hc
    · rfl
    · rw [List.eq_of_mem_replicate hc]
      rfl
  exact List.dropWhile_append_of_pos hall

theorem skipGap_cons {c : Char} (h : isGap c = false) (s : List Char) :
    skipGap (c :: s) = c :: s := by
  rw [skipGap, List.dropWhile_cons, h]
  rfl

theorem integer_cons (n : Int) : ∃ c cs, integer n = c :: cs ∧
    (c.isDigit = true ∨ c = '-' ∧ ∃ d ds, cs = d :: ds ∧ d.isDigit = true) := by
  have hdigits : ∃ d ds, decimal n.natAbs = d :: ds ∧ d.isDigit = true := by
    cases h : decimal n.natAbs with
    | nil => exact absurd h (decimal_ne_nil _)
    | cons d ds => exact ⟨d, ds, rfl, isDigit_of_mem_decimal (n := n.natAbs) (by rw [h]; simp)⟩
  obtain ⟨d, ds, hds, hd⟩ := hdigits
  unfold integer
  by_cases hn : n < 0
  · exact ⟨'-', d :: ds, by rw [if_pos hn, hds], Or.inr ⟨rfl, d, ds, rfl, hd⟩⟩
  · exact ⟨d, ds, by rw [if_neg hn, hds], Or.inl hd⟩

theorem isGap_of_isDigit {c : Char} (h : c.isDigit = true) : isGap c = false := by
  have hc := toNat_of_isDigit h
  have hne : ∀ d : Char, d.toNat < 48 → c ≠ d := by
    rintro d hd rfl
    omega
  simp [isGap, hne ' ' (by decide), hne '\n' (by decide), hne '\t' (by decide),
    hne '\r' (by decide)]

/-- A written value begins with a character that is no gap, and closes no list. -/
theorem writeAt_cons (depth : Nat) {j : Json} (hj : Exact j) :
    ∃ c cs, writeAt depth j = c :: cs ∧ isGap c = false ∧ c ≠ ']' := by
  cases j with
  | null => exact ⟨'n', _, rfl, rfl, by decide⟩
  | bool b => cases b <;> exact ⟨_, _, rfl, rfl, by decide⟩
  | int n =>
    obtain ⟨c, cs, hcs, hc⟩ := integer_cons n
    refine ⟨c, cs, hcs, ?_⟩
    rcases hc with hc | ⟨rfl, -⟩
    · refine ⟨isGap_of_isDigit hc, ?_⟩
      rintro rfl
      exact absurd hc (by decide)
    · exact ⟨rfl, by decide⟩
  | float x => exact absurd hj (by simp [Exact])
  | str s => exact ⟨'"', _, rfl, rfl, by decide⟩
  | arr items => cases items <;> exact ⟨'[', _, rfl, rfl, by decide⟩
  | obj fields =>
    rcases fields with _ | ⟨⟨k, x⟩, rest⟩ <;> exact ⟨'{', _, rfl, rfl, by decide⟩

@[simp] theorem length_newLine (depth : Nat) : (newLine depth).length = 2 * depth + 1 := by
  rw [newLine, List.length_cons, List.length_replicate]

theorem behind_newLine (depth : Nat) (s : List Char) : Behind (newLine depth ++ s) := .feed _

theorem behind_writeItems (depth outer : Nat) (xs : List Json) (s : List Char) :
    Behind (writeItems depth xs ++ (newLine outer ++ s)) := by
  cases xs with
  | nil => exact behind_newLine outer s
  | cons x rest => exact .comma _

theorem behind_writeFields (depth outer : Nat) (fs : List (String × Json)) (s : List Char) :
    Behind (writeFields depth fs ++ (newLine outer ++ s)) := by
  rcases fs with _ | ⟨⟨k, x⟩, rest⟩
  · exact behind_newLine outer s
  · exact .comma _

/-! ### The reader, step by step -/

theorem readValue_gap (fuel depth : Nat) (s : List Char) :
    readValue fuel (newLine depth ++ s) = readValue fuel s := by
  cases fuel with
  | zero => rfl
  | succ n => rw [readValue, skipGap_newLine, ← readValue]

theorem readValue_blank (fuel : Nat) (s : List Char) :
    readValue fuel (' ' :: s) = readValue fuel s := by
  cases fuel with
  | zero => rfl
  | succ n =>
    rw [readValue, show skipGap (' ' :: s) = skipGap s from rfl, ← readValue]

theorem readValue_integer (fuel : Nat) (n : Int) {rest : List Char} (h : Behind rest) :
    readValue (fuel + 1) (integer n ++ rest) = some (.int n, rest) := by
  rw [← readNumber_integer n h]
  obtain ⟨c, cs, hcs, hc⟩ := integer_cons n
  rw [hcs]
  rcases hc with hc | ⟨rfl, d, ds, rfl, hd⟩
  · have hne : ∀ d : Char, d.isDigit = false → c ≠ d := by
      rintro d hd rfl
      rw [hc] at hd
      cases hd
    rw [readValue, List.cons_append, skipGap_cons (isGap_of_isDigit hc)]
    split
    all_goals first
      | rfl
      | next u hu => exact absurd (List.cons.inj hu).1 (hne _ (by decide))
  · rw [readValue, List.cons_append, skipGap_cons rfl]
    split
    case h_6 u hu =>
      -- The word for the negative infinity has a letter behind its sign.
      have hI : d = 'I' := (List.cons.inj (List.cons.inj hu).2).1
      rw [hI] at hd
      exact absurd hd (by decide)
    all_goals first
      | rfl
      | next u hu => exact absurd (List.cons.inj hu).1 (by decide)

theorem readValue_quote (fuel : Nat) (s : String) (rest : List Char) :
    readValue (fuel + 1) (quote s ++ rest) = some (.str s, rest) := by
  have hquote : quote s ++ rest = '"' :: (s.toList.flatMap escapedChar ++ '"' :: rest) := by
    rw [quote, List.append_assoc]
    rfl
  rw [hquote]
  show (readText (s.toList.flatMap escapedChar ++ '"' :: rest)).bind _ = _
  rw [readText_escaped]
  rfl

/-- A list that is not closed at once. -/
theorem readValue_items {fuel : Nat} {s : List Char} {items : List Json} {rest : List Char}
    (hopen : ∀ t, skipGap s ≠ ']' :: t) (hitems : readItems fuel s = some (items, rest)) :
    readValue (fuel + 1) ('[' :: s) = some (.arr items, rest) := by
  rw [readValue, skipGap_cons rfl]
  -- The branch of the empty list is ruled out by `hopen`.
  simp only [hitems]
  rfl

theorem readItems_close {fuel : Nat} {s t u : List Char} {x : Json}
    (hx : readValue fuel s = some (x, t)) (ht : skipGap t = ']' :: u) :
    readItems (fuel + 1) s = some ([x], u) := by
  rw [readItems, hx]
  simp only [Option.bind_eq_bind, Option.bind_some, ht]

theorem readItems_comma {fuel : Nat} {s t u rest : List Char} {x : Json} {more : List Json}
    (hx : readValue fuel s = some (x, t)) (ht : skipGap t = ',' :: u)
    (hmore : readItems fuel u = some (more, rest)) :
    readItems (fuel + 1) s = some (x :: more, rest) := by
  rw [readItems, hx]
  simp only [Option.bind_eq_bind, Option.bind_some, ht, hmore]

/-- An object that is not closed at once. -/
theorem readValue_fields {fuel depth : Nat} {k : String} {s : List Char}
    {fields : List (String × Json)} {rest : List Char}
    (hfields : readFields fuel [] (newLine depth ++ (quote k ++ s)) = some (fields, rest)) :
    readValue (fuel + 1) ('{' :: (newLine depth ++ (quote k ++ s))) = some (.obj fields, rest) := by
  rw [readValue, skipGap_cons rfl]
  have hquote : skipGap (newLine depth ++ (quote k ++ s)) = quote k ++ s := by
    rw [skipGap_newLine]
    exact skipGap_cons rfl _
  simp only [hquote]
  split
  · next u hu => exact absurd (List.cons.inj hu).1 (by decide)
  · rw [hfields]
    rfl

/-- A field up to its value. -/
theorem readFields_head (fuel depth : Nat) (fs : List (String × Json)) (k : String)
    (s : List Char) :
    readFields (fuel + 1) fs (newLine depth ++ (quote k ++ ':' :: s)) = (do
      let (x, t) ← readValue fuel s
      match skipGap t with
      | ',' :: u => readFields fuel (putField k x fs) u
      | '}' :: u => some (putField k x fs, u)
      | _ => none) := by
  have hquote : quote k ++ ':' :: s = '"' :: (k.toList.flatMap escapedChar ++ '"' :: ':' :: s) := by
    rw [quote, List.append_assoc]
    rfl
  rw [readFields, skipGap_newLine, hquote, skipGap_cons rfl]
  show (readText (k.toList.flatMap escapedChar ++ '"' :: ':' :: s)).bind _ = _
  rw [readText_escaped]
  rfl

theorem readFields_close {fuel depth : Nat} {fs : List (String × Json)} {k : String}
    {s t u : List Char} {x : Json} (hx : readValue fuel s = some (x, t))
    (ht : skipGap t = '}' :: u) :
    readFields (fuel + 1) fs (newLine depth ++ (quote k ++ ':' :: s)) =
      some (putField k x fs, u) := by
  rw [readFields_head, hx]
  simp only [Option.bind_eq_bind, Option.bind_some, ht]

theorem readFields_comma {fuel depth : Nat} {fs : List (String × Json)} {k : String}
    {s t u : List Char} {x : Json} (hx : readValue fuel s = some (x, t))
    (ht : skipGap t = ',' :: u) :
    readFields (fuel + 1) fs (newLine depth ++ (quote k ++ ':' :: s)) =
      readFields fuel (putField k x fs) u := by
  rw [readFields_head, hx]
  simp only [Option.bind_eq_bind, Option.bind_some, ht]

/-- A field with a name of its own comes behind the others. -/
theorem putField_of_not_mem {k : String} {x : Json} {fs : List (String × Json)}
    (h : k ∉ fs.map Prod.fst) : putField k x fs = fs ++ [(k, x)] := by
  induction fs with
  | nil => rfl
  | cons f rest ih =>
    obtain ⟨l, y⟩ := f
    have hne : ¬ l = k := by
      rintro rfl
      exact h (by simp)
    rw [putField, if_neg hne, ih fun hk => h (by simp [hk])]
    rfl

theorem not_mem_of_nodup {k : String} {front rest : List String}
    (h : (front ++ k :: rest).Nodup) : k ∉ front := by
  intro hmem
  exact (List.nodup_append.mp h).2.2 k hmem k (by simp) rfl

/-! ### Written values -/

mutual

/-- With as much fuel as the text of a value has characters, the value is read. -/
theorem readValue_write : ∀ (j : Json) (depth fuel : Nat) (rest : List Char), Exact j →
    Behind rest → (writeAt depth j).length ≤ fuel →
    readValue fuel (writeAt depth j ++ rest) = some (j, rest)
  | j, depth, 0, rest, hj, _, hfuel => by
    obtain ⟨c, cs, hcs, -⟩ := writeAt_cons depth hj
    rw [hcs] at hfuel
    exact absurd hfuel (by simp)
  | .null, depth, n + 1, rest, _, _, _ => rfl
  | .bool true, depth, n + 1, rest, _, _, _ => rfl
  | .bool false, depth, n + 1, rest, _, _, _ => rfl
  | .int m, depth, n + 1, rest, _, hrest, _ => by
    rw [writeAt]
    exact readValue_integer n m hrest
  | .float x, depth, n + 1, rest, hj, _, _ => by
    rw [Exact] at hj
    exact hj.elim
  | .str s, depth, n + 1, rest, _, _, _ => by
    rw [writeAt]
    exact readValue_quote n s rest
  | .arr [], depth, n + 1, rest, _, _, _ => rfl
  | .arr (x :: xs), depth, n + 1, rest, hj, hrest, hfuel => by
    obtain ⟨hx, hxs⟩ : Exact x ∧ ExactItems xs := by rwa [Exact, ExactItems] at hj
    simp only [writeAt, List.cons_append, List.append_assoc, List.length_cons, List.length_append,
      length_newLine] at hfuel ⊢
    obtain ⟨c, cs, hcs, hgap, hclose⟩ := writeAt_cons (depth + 1) hx
    refine readValue_items ?_ ?_
    · intro t ht
      rw [skipGap_newLine, hcs, List.cons_append, skipGap_cons hgap] at ht
      exact hclose (List.cons.inj ht).1
    · obtain ⟨m, rfl⟩ : ∃ m, n = m + 1 := ⟨n - 1, by omega⟩
      refine readItems_write xs (depth + 1) depth m x _ rest hxs (by omega) ?_
      rw [readValue_gap]
      exact readValue_write x (depth + 1) m _ hx (behind_writeItems _ _ xs _) (by omega)
  | .obj [], depth, n + 1, rest, _, _, _ => rfl
  | .obj ((k, x) :: fs), depth, n + 1, rest, hj, hrest, hfuel => by
    obtain ⟨hnames, hx, hfs⟩ :
        (((k, x) :: fs).map Prod.fst).Nodup ∧ Exact x ∧ ExactFields fs := by
      rwa [Exact, ExactFields] at hj
    simp only [writeAt, List.cons_append, List.append_assoc, List.length_cons, List.length_append,
      length_newLine] at hfuel ⊢
    refine readValue_fields ?_
    obtain ⟨m, rfl⟩ : ∃ m, n = m + 1 := ⟨n - 1, by omega⟩
    refine readFields_write fs (depth + 1) depth m [] k x _ rest hfs hnames (by omega) ?_
    rw [readValue_blank]
    exact readValue_write x (depth + 1) m _ hx (behind_writeFields _ _ fs _) (by omega)

/-- The items behind one that was read. -/
theorem readItems_write : ∀ (xs : List Json) (depth outer fuel : Nat) (x : Json)
    (s rest : List Char), ExactItems xs → (writeItems depth xs).length ≤ fuel →
    readValue fuel s = some (x, writeItems depth xs ++ (newLine outer ++ ']' :: rest)) →
    readItems (fuel + 1) s = some (x :: xs, rest)
  | [], depth, outer, fuel, x, s, rest, _, _, hx => by
    refine readItems_close hx ?_
    show skipGap (newLine outer ++ ']' :: rest) = _
    rw [skipGap_newLine]
    rfl
  | y :: ys, depth, outer, 0, x, s, rest, _, hfuel, _ => by
    exact absurd hfuel (by simp [writeItems])
  | y :: ys, depth, outer, n + 1, x, s, rest, hxs, hfuel, hx => by
    obtain ⟨hy, hys⟩ : Exact y ∧ ExactItems ys := by rwa [ExactItems] at hxs
    simp only [writeItems, List.cons_append, List.append_assoc, List.length_cons,
      List.length_append, length_newLine] at hfuel hx
    refine readItems_comma hx (skipGap_cons rfl _) ?_
    refine readItems_write ys depth outer n y _ rest hys (by omega) ?_
    rw [readValue_gap]
    exact readValue_write y depth n _ hy (behind_writeItems depth outer ys _) (by omega)

/-- The fields behind one whose value was read. -/
theorem readFields_write : ∀ (fs : List (String × Json)) (depth outer fuel : Nat)
    (front : List (String × Json)) (k : String) (x : Json) (s rest : List Char), ExactFields fs →
    (front.map Prod.fst ++ k :: fs.map Prod.fst).Nodup → (writeFields depth fs).length ≤ fuel →
    readValue fuel s = some (x, writeFields depth fs ++ (newLine outer ++ '}' :: rest)) →
    readFields (fuel + 1) front (newLine depth ++ (quote k ++ ':' :: s)) =
      some (front ++ (k, x) :: fs, rest)
  | [], depth, outer, fuel, front, k, x, s, rest, _, hnames, _, hx => by
    rw [← putField_of_not_mem (not_mem_of_nodup hnames)]
    refine readFields_close hx ?_
    show skipGap (newLine outer ++ '}' :: rest) = _
    rw [skipGap_newLine]
    rfl
  | (l, y) :: fs, depth, outer, 0, front, k, x, s, rest, _, _, hfuel, _ => by
    exact absurd hfuel (by simp [writeFields])
  | (l, y) :: fs, depth, outer, n + 1, front, k, x, s, rest, hfs, hnames, hfuel, hx => by
    obtain ⟨hy, hfs⟩ : Exact y ∧ ExactFields fs := by rwa [ExactFields] at hfs
    simp only [writeFields, List.cons_append, List.append_assoc, List.length_cons,
      List.length_append, length_newLine] at hfuel hx
    rw [readFields_comma hx (skipGap_cons rfl _), putField_of_not_mem (not_mem_of_nodup hnames)]
    have happend : front ++ (k, x) :: (l, y) :: fs = (front ++ [(k, x)]) ++ (l, y) :: fs := by
      rw [List.append_assoc]
      rfl
    rw [happend]
    refine readFields_write fs depth outer n _ l y _ rest hfs ?_ (by omega) ?_
    · rw [List.map_append, List.append_assoc]
      exact hnames
    · rw [readValue_blank]
      exact readValue_write y depth n _ hy (behind_writeFields depth outer fs _) (by omega)

end

end LintHost.Json
