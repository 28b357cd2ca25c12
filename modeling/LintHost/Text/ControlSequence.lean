/-
Control sequences of terminals, and texts without them.

A control sequence is ESC and an opening bracket, then parameters, then intermediate characters,
then one final character; without the final character it is no sequence.  `plain` leaves sequences
out of a text, each where it starts first, and keeps everything else.  `plain_of_no_escape` says
that a text without ESC is left alone.
-/

namespace LintHost.Text

/-- The character that opens a control sequence, before the bracket. -/
def escape : Char := Char.ofNat 0x1B

/-- Parameters: digits, colon, semicolon and the comparison signs with the question mark. -/
def isParameter (c : Char) : Bool := 0x30 ≤ c.toNat && c.toNat ≤ 0x3F

/-- Intermediate characters: the space and the signs before the digits. -/
def isIntermediate (c : Char) : Bool := 0x20 ≤ c.toNat && c.toNat ≤ 0x2F

/-- Final characters: letters and the signs around them. -/
def isFinal (c : Char) : Bool := 0x40 ≤ c.toNat && c.toNat ≤ 0x7E

/-- What follows a control sequence of which ESC was read already; none where it is no sequence. -/
def afterSequence? : List Char → Option (List Char)
  | '[' :: s =>
    match (s.dropWhile isParameter).dropWhile isIntermediate with
    | c :: rest => if isFinal c then some rest else none
    | [] => none
  | _ => none

/-- What follows a control sequence is shorter. -/
theorem length_afterSequence? {s rest : List Char} (h : afterSequence? s = some rest) :
    rest.length < s.length := by
  unfold afterSequence? at h
  split at h
  · rename_i t
    have h1 : ((t.dropWhile isParameter).dropWhile isIntermediate).length ≤ t.length :=
      Nat.le_trans (List.dropWhile_suffix _).length_le (List.dropWhile_suffix _).length_le
    split at h
    · rename_i c r hr
      split at h
      · obtain rfl : r = rest := by simpa using h
        rw [hr] at h1
        simp only [List.length_cons] at h1 ⊢
        omega
      · simp at h
    · simp at h
  · simp at h

/-- What stands behind the first character of a kind is shorter. -/
theorem length_of_dropWhile_eq {p : Char → Bool} {s rest : List Char} {c : Char}
    (h : s.dropWhile p = c :: rest) : rest.length < s.length := by
  have hle := (List.dropWhile_suffix (l := s) p).length_le
  rw [h, List.length_cons] at hle
  omega

/-- The text without its control sequences. -/
def plain (s : List Char) : List Char :=
  match hs : s.dropWhile (· ≠ escape) with
  | [] => s
  | _ :: rest =>
    have := length_of_dropWhile_eq hs
    s.takeWhile (· ≠ escape) ++
      match h : afterSequence? rest with
      | some more =>
        have := length_afterSequence? h
        plain more
      | none => escape :: plain rest
termination_by s.length

theorem dropWhile_of_no_escape {s : List Char} (h : escape ∉ s) :
    s.dropWhile (· ≠ escape) = [] := by
  induction s with
  | nil => rfl
  | cons c rest ih =>
    have hc : c ≠ escape := fun he => h (by simp [he])
    rw [List.dropWhile_cons_of_pos (by simpa using hc)]
    exact ih fun hr => h (List.mem_cons_of_mem c hr)

/-- A text without ESC is left alone. -/
theorem plain_of_no_escape {s : List Char} (h : escape ∉ s) : plain s = s := by
  rw [plain]
  split
  · rfl
  · rename_i he
    rw [dropWhile_of_no_escape h] at he
    cases he

end LintHost.Text
