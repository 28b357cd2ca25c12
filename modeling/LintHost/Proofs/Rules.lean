/-
What the analyzers that come with the host report, and where.

Line by line they are exact: `rules_exact` says that each reports one finding for every line that it
is about, in the order of the lines, and nothing else.  A finding names the line by its number and
the first place in it at which the rule's text stands, and its location is what the check makes of
the fields that were written.

Over the whole text their lines are those of `Text.lines`, which end at every break.
`rules_placed` says that the line and the column of a finding are those of a place at which the text
stands, counted by breaks, and that they are the ones that a reader counts by LF exactly where no
other break is in the way.
-/
import LintHost.Rules
import LintHost.Diagnostic.Validation
import LintHost.Json.Reader
import LintHost.Proofs.Text.Position
import LintHost.Proofs.Text.Search
import Mathlib.Data.List.Forall2

namespace LintHost

namespace Text

/-! ### Texts without their blank ends -/

theorem mem_of_mem_strip {s : List Char} {c : Char} (h : c ∈ strip s) : c ∈ s := by
  have hleft : c ∈ (stripLeft s).reverse :=
    (List.dropWhile_sublist _).subset (List.mem_reverse.mp h)
  exact (List.dropWhile_sublist _).subset (List.mem_reverse.mp hleft)

/-- A text whose ends are not blank stays in front of what comes behind it. -/
theorem prefix_strip {front rest : List Char} (hhead : ∀ c ∈ front.head?, isBlank c = false)
    (hlast : ∀ c ∈ front.getLast?, isBlank c = false) : front <+: strip (front ++ rest) := by
  rcases List.eq_nil_or_concat front with rfl | ⟨start, last, hconcat⟩
  · exact List.nil_prefix
  · rw [List.concat_eq_append] at hconcat
    have hstop : isBlank last = false := hlast last (by simp [hconcat])
    have hleft : stripLeft (front ++ rest) = front ++ rest := by
      obtain ⟨c, more, hfront⟩ := List.exists_cons_of_ne_nil (l := front) (by simp [hconcat])
      rw [hfront, List.cons_append]
      exact stripLeft_of_head _ (hhead c (by rw [hfront]; rfl))
    have hkeep : front.reverse.dropWhile isBlank = front.reverse := by
      rw [hconcat, List.reverse_append, List.reverse_singleton, List.singleton_append,
        List.dropWhile_cons_of_neg (by simp [hstop])]
    rw [strip, hleft, stripRight, List.reverse_append, List.dropWhile_append, hkeep]
    split_ifs
    · rw [List.reverse_reverse]
    · rw [List.reverse_append, List.reverse_reverse]
      exact List.prefix_append _ _

end Text

namespace Rules

open LintHost.Text

/-! ### Lines and their numbers -/

variable {source path : String} {n : Nat} {line : List Char}

theorem mem_numberedLines :
    (n, line) ∈ numberedLines source ↔ 1 ≤ n ∧ (lines source.toList)[n - 1]? = some line := by
  rw [numberedLines, List.mem_map]
  constructor
  · rintro ⟨⟨l, i⟩, hmem, heq⟩
    obtain ⟨rfl, rfl⟩ := Prod.mk.inj heq
    exact ⟨Nat.succ_pos i, List.mem_zipIdx_iff_getElem?.mp hmem⟩
  · rintro ⟨hpos, hline⟩
    exact ⟨(line, n - 1), List.mem_zipIdx_iff_getElem?.mpr hline, by rw [Nat.sub_add_cancel hpos]⟩

theorem breakFree_of_mem {numbered : Nat × List Char} (h : numbered ∈ numberedLines source) :
    BreakFree numbered.2 :=
  not_break_of_mem_lines _ _ (List.mem_of_getElem? (mem_numberedLines.mp h).2)

theorem pairwise_zipIdx {α : Type} (l : List α) (k : Nat) :
    (l.zipIdx k).Pairwise fun a b => a.2 < b.2 := by
  induction l generalizing k with
  | nil => exact List.Pairwise.nil
  | cons a rest ih =>
    rw [List.zipIdx_cons, List.pairwise_cons]
    exact ⟨fun b hb => List.le_snd_of_mem_zipIdx hb, ih (k + 1)⟩

theorem pairwise_numberedLines (source : String) :
    (numberedLines source).Pairwise fun a b => a.1 < b.1 := by
  rw [numberedLines, List.pairwise_map]
  exact (pairwise_zipIdx _ 0).imp fun h => Nat.succ_lt_succ h

/-- What is made of the items that pass a test, one result each. -/
theorem forall₂_filterMap {α β : Type} {f : α → Option β} {P : α → Prop} [DecidablePred P]
    {R : α → β → Prop} {l : List α} (hsome : ∀ a ∈ l, (f a).isSome = true ↔ P a)
    (hR : ∀ a ∈ l, ∀ b, f a = some b → R a b) :
    List.Forall₂ R (l.filter fun a => decide (P a)) (l.filterMap f) := by
  induction l with
  | nil => exact List.Forall₂.nil
  | cons a rest ih =>
    have hrest := ih (fun x hx => hsome x (List.mem_cons_of_mem a hx))
      fun x hx => hR x (List.mem_cons_of_mem a hx)
    have hiff := hsome a List.mem_cons_self
    cases hfa : f a with
    | none =>
      have hnot : ¬P a := by
        rw [← hiff, hfa]
        exact Bool.false_ne_true
      rw [List.filterMap_cons_none hfa, List.filter_cons_of_neg (by simpa using hnot)]
      exact hrest
    | some b =>
      have hpass : P a := by
        rw [← hiff, hfa]
        rfl
      rw [List.filterMap_cons_some hfa, List.filter_cons_of_pos (by simpa using hpass)]
      exact List.Forall₂.cons (hR a List.mem_cons_self b hfa) hrest

/-! ### What a line is reported for -/

/-- Calls print, and is no remark as a whole. -/
def CallsPrint (line : List Char) : Prop :=
  printCall <:+: line ∧ (strip line).head? ≠ some '#'

/-- Holds a remark about work to do. -/
def HoldsTodo (line : List Char) : Prop := todoMark <:+: line

instance : DecidablePred CallsPrint := fun line =>
  inferInstanceAs (Decidable (printCall <:+: line ∧ (strip line).head? ≠ some '#'))

instance : DecidablePred HoldsTodo := fun line =>
  inferInstanceAs (Decidable (todoMark <:+: line))

/-- A location in a numbered line, at the first place in it at which a text stands. -/
structure PointsAt (needle : List Char) (path : String) (line : Nat × List Char) (offset : Nat)
    (l : Location) : Prop where
  first : FirstAt needle line.2 offset
  file : l.file = some path
  startLine : l.startLine = line.1
  endLine : l.endLine = line.1
  startColumn : l.startColumn = offset + 1

/-- The fields of a location as they are written: the end of the line never, that of the columns
where it is not the start. -/
def locationFields (path : String) (line column : Nat) (endColumn : Option Nat) :
    List (Value × Value) :=
  [(.str "file", .str path), (.str "start_line", .int line), (.str "start_column", .int column)] ++
    endColumn.toList.map fun n => (.str "end_column", .int n)

/-- What a location covers of its line. -/
def covered (line : List Char) (l : Location) : List Char :=
  (line.drop (l.startColumn - 1).toNat).take (l.endColumn - l.startColumn).toNat

/-- A finding about a call of print in a numbered line. -/
structure PrintReport (path : String) (line : Nat × List Char) (d : Diagnostic) : Prop where
  code : d.ruleCode = "CUSTOM001"
  place : ∃ l offset, d.location = some l ∧ PointsAt printCall path line offset l ∧
    covered line.2 l = printCall ∧
    Location.check (.map (locationFields path line.1 (offset + 1)
      (some (offset + printCall.length + 1)))) = .ok l

/-- The word of a remark about work to do. -/
def todoWord : List Char := "TODO".toList

/-- A message that quotes a remark: the quoted text starts with the remark's word, is on one line
and has no blank ends. -/
def Quotes (message : String) (remark : List Char) : Prop :=
  message =
      "TODO found: '" ++ String.ofList (strip remark) ++ "'. Consider creating a proper task." ∧
    todoWord <+: strip remark ∧ BreakFree (strip remark)

/-- A finding about a remark in a numbered line. -/
structure TodoReport (path : String) (line : Nat × List Char) (d : Diagnostic) : Prop where
  code : d.ruleCode = "CUSTOM002"
  place : ∃ l offset, d.location = some l ∧ PointsAt todoMark path line offset l ∧
    l.endColumn = l.startColumn ∧ Quotes d.message (line.2.drop (offset + 2)) ∧
    Location.check (.map (locationFields path line.1 (offset + 1) none)) = .ok l

variable {d : Diagnostic} {numbered : Nat × List Char}

theorem isRemark_eq_false_iff : isRemark line = false ↔ (strip line).head? ≠ some '#' := by
  rw [isRemark, beq_eq_false_iff_ne]

theorem isSome_printIn_iff : (printIn path numbered).isSome = true ↔ CallsPrint numbered.2 := by
  rw [printIn, CallsPrint, ← isRemark_eq_false_iff]
  cases hfound : offset? printCall numbered.2 with
  | none => simp [offset?_eq_none_iff.mp hfound]
  | some offset =>
    have hstands : printCall <:+: numbered.2 :=
      exists_firstAt_iff.mp ⟨offset, offset?_eq_some_iff.mp hfound⟩
    cases isRemark numbered.2 <;> simp [hstands]

theorem isSome_todoIn_iff : (todoIn path numbered).isSome = true ↔ HoldsTodo numbered.2 := by
  rw [todoIn, Option.isSome_map, HoldsTodo]
  cases hfound : offset? todoMark numbered.2 with
  | none => simp [offset?_eq_none_iff.mp hfound]
  | some offset => simpa using exists_firstAt_iff.mp ⟨offset, offset?_eq_some_iff.mp hfound⟩

theorem eq_printFinding (h : printIn path numbered = some d) :
    ∃ offset, FirstAt printCall numbered.2 offset ∧ d = printFinding path numbered.1 offset := by
  rw [printIn] at h
  cases hfound : offset? printCall numbered.2 with
  | none =>
    rw [hfound] at h
    cases h
  | some offset =>
    simp only [hfound] at h
    split_ifs at h
    exact ⟨offset, offset?_eq_some_iff.mp hfound, (Option.some.inj h).symm⟩

theorem eq_todoFinding (h : todoIn path numbered = some d) :
    ∃ offset, FirstAt todoMark numbered.2 offset ∧
      d = todoFinding path numbered.1 offset (numbered.2.drop (offset + 2)) := by
  obtain ⟨offset, hfound, rfl⟩ := Option.map_eq_some_iff.mp h
  exact ⟨offset, offset?_eq_some_iff.mp hfound, rfl⟩

/-- What stands at an offset can be taken from there. -/
theorem take_of_prefix {needle s : List Char} (h : needle <+: s) : s.take needle.length = needle :=
  (List.prefix_iff_eq_take.mp h).symm

theorem printReport (h : printIn path numbered = some d) : PrintReport path numbered d := by
  obtain ⟨offset, hfirst, rfl⟩ := eq_printFinding h
  refine ⟨rfl, _, offset, rfl, ⟨hfirst, rfl, rfl, rfl, rfl⟩, ?_, rfl⟩
  have hstart : ((offset : Int) + 1 - 1).toNat = offset := by omega
  have hwidth : ((offset : Int) + printCall.length + 1 - (offset + 1)).toNat =
      printCall.length := by omega
  rw [covered, hstart, hwidth]
  exact take_of_prefix hfirst.occurs

theorem todoReport (hfree : BreakFree numbered.2) (h : todoIn path numbered = some d) :
    TodoReport path numbered d := by
  obtain ⟨offset, hfirst, rfl⟩ := eq_todoFinding h
  have hword : todoWord <+: numbered.2.drop (offset + 2) := by
    rw [← List.drop_drop]
    exact hfirst.occurs.drop 2
  have hhead : ∀ c ∈ todoWord.head?, isBlank c = false := fun c hc => by
    obtain rfl : 'T' = c := Option.some.inj hc
    rfl
  have hlast : ∀ c ∈ todoWord.getLast?, isBlank c = false := fun c hc => by
    obtain rfl : 'O' = c := Option.some.inj hc
    rfl
  refine ⟨rfl, _, offset, rfl, ⟨hfirst, rfl, rfl, rfl, rfl⟩, rfl, ⟨rfl, ?_, ?_⟩, rfl⟩
  · obtain ⟨rest, hrest⟩ := hword
    rw [← hrest]
    exact prefix_strip hhead hlast
  · intro c hc
    exact hfree c (List.mem_of_mem_drop (mem_of_mem_strip hc))

/-! ### Everything that is reported -/

/-- The first of two findings is in an earlier line. -/
def Above (d e : Diagnostic) : Prop :=
  ∃ l m, d.location = some l ∧ e.location = some m ∧ l.startLine < m.startLine

theorem above_of_numbers {rule : Nat × List Char → Option Diagnostic} {source : String}
    (hline : ∀ numbered ∈ numberedLines source, ∀ d, rule numbered = some d →
      ∃ l, d.location = some l ∧ l.startLine = numbered.1) :
    ((numberedLines source).filterMap rule).Pairwise Above := by
  rw [List.pairwise_filterMap]
  refine (pairwise_numberedLines source).imp_of_mem fun {a b} ha hb hab d hd e he => ?_
  obtain ⟨l, hl, hla⟩ := hline a ha d hd
  obtain ⟨m, hm, hmb⟩ := hline b hb e he
  refine ⟨l, m, hl, hm, ?_⟩
  rw [hla, hmb]
  exact Int.ofNat_lt.mpr hab

/-- **The analyzers report their lines one by one, in order, and nothing else.** -/
theorem rules_exact (c : Context) :
    Splits c.source.toList (lines c.source.toList) ∧
    (∀ n line, (n, line) ∈ numberedLines c.source ↔
      1 ≤ n ∧ (lines c.source.toList)[n - 1]? = some line) ∧
    List.Forall₂ (PrintReport c.path)
      ((numberedLines c.source).filter fun numbered => decide (CallsPrint numbered.2))
      (noPrint c) ∧
    List.Forall₂ (TodoReport c.path)
      ((numberedLines c.source).filter fun numbered => decide (HoldsTodo numbered.2))
      (todoRemarks c) ∧
    (noPrint c).Pairwise Above ∧ (todoRemarks c).Pairwise Above := by
  have hprint : ∀ numbered d, printIn c.path numbered = some d → PrintReport c.path numbered d :=
    fun _ _ h => printReport h
  have htodo : ∀ numbered ∈ numberedLines c.source, ∀ d, todoIn c.path numbered = some d →
      TodoReport c.path numbered d :=
    fun _ hmem _ h => todoReport (breakFree_of_mem hmem) h
  refine ⟨splits_lines _, fun n line => mem_numberedLines, ?_, ?_, ?_, ?_⟩
  · exact forall₂_filterMap (fun _ _ => isSome_printIn_iff) fun numbered _ d => hprint numbered d
  · exact forall₂_filterMap (fun _ _ => isSome_todoIn_iff) htodo
  · refine above_of_numbers fun numbered hmem d h => ?_
    obtain ⟨l, offset, hl, hpoints, -⟩ := (hprint numbered d h).place
    exact ⟨l, hl, hpoints.startLine⟩
  · refine above_of_numbers fun numbered hmem d h => ?_
    obtain ⟨l, offset, hl, hpoints, -⟩ := (htodo numbered hmem d h).place
    exact ⟨l, hl, hpoints.startLine⟩

/-! ### Places in the whole text -/

/-- A location says where a text stands: its line and its column are counted by breaks, and are the
ones counted by LF where no other break is in the way. -/
structure Placed (needle s : List Char) (place : Nat) (l : Location) : Prop where
  occurs : needle <+: s.drop place
  line : l.startLine = lineOf isBreak s place
  column : l.startColumn = columnOf isBreak s place
  line_iff : l.startLine = lineOf isFeed s place ↔ ∀ c ∈ s.take place, isBreak c = true → c = '\n'
  column_iff : l.startColumn = columnOf isFeed s place ↔ BreakFree (behindEnd isFeed s place)

theorem PointsAt.placed {needle : List Char} {l : Location} {offset : Nat}
    (h : PointsAt needle path numbered offset l) (hne : needle ≠ [])
    (hreturn : '\r' ∉ source.toList) (hmem : numbered ∈ numberedLines source) :
    ∃ place, Placed needle source.toList place l := by
  obtain ⟨n, line⟩ := numbered
  obtain ⟨hpos, hline⟩ := mem_numberedLines.mp hmem
  have hinside : offset ≤ line.length := by
    by_contra hbehind
    have hnone : line.drop offset = [] := List.drop_eq_nil_of_le (by omega)
    have hoccurs := h.first.occurs
    rw [hnone, List.prefix_nil] at hoccurs
    exact hne hoccurs
  obtain ⟨place, hstands, hlineOf, hcolumnOf⟩ := exists_place hreturn hline hinside
  have hstart : l.startLine = lineOf isBreak source.toList place := by
    rw [h.startLine, hlineOf, Nat.sub_add_cancel hpos]
  have hcolumn : l.startColumn = columnOf isBreak source.toList place := by
    rw [h.startColumn, hcolumnOf]
    rfl
  refine ⟨place, h.first.occurs.trans hstands, hstart, hcolumn, ?_, ?_⟩
  · rw [hstart, Int.natCast_inj, ← lineOf_feed_eq_iff]
    exact eq_comm
  · rw [hcolumn, Int.natCast_inj, ← columnOf_feed_eq_iff]
    exact eq_comm

/-- **A finding is where its text stands, by lines that end at every break.** -/
theorem rules_placed (c : Context) (hreturn : '\r' ∉ c.source.toList) :
    (∀ d ∈ noPrint c, ∃ l place, d.location = some l ∧
      Placed printCall c.source.toList place l) ∧
    ∀ d ∈ todoRemarks c, ∃ l place, d.location = some l ∧
      Placed todoMark c.source.toList place l := by
  refine ⟨fun d hd => ?_, fun d hd => ?_⟩
  · obtain ⟨numbered, hmem, hreport⟩ := List.mem_filterMap.mp hd
    obtain ⟨l, offset, hl, hpoints, -⟩ := (printReport hreport).place
    obtain ⟨place, hplaced⟩ := hpoints.placed (by decide) hreturn hmem
    exact ⟨l, place, hl, hplaced⟩
  · obtain ⟨numbered, hmem, hreport⟩ := List.mem_filterMap.mp hd
    obtain ⟨l, offset, hl, hpoints, -⟩ := (todoReport (breakFree_of_mem hmem) hreport).place
    obtain ⟨place, hplaced⟩ := hpoints.placed (by decide) hreturn hmem
    exact ⟨l, place, hl, hplaced⟩

/-- A text whose second line is in the first line of its file. -/
def afterFormFeed : Context := ⟨"m.py", "\x0cprint(1)\n", none⟩

/-- Behind a form feed the place is reported as line 2, column 1, and a reader who counts LF has it
in line 1, column 2. -/
theorem rules_placed_of_formFeed :
    '\r' ∉ afterFormFeed.source.toList ∧ ∃ d ∈ noPrint afterFormFeed, ∃ l place,
      d.location = some l ∧ Placed printCall afterFormFeed.source.toList place l ∧
      l.startLine = 2 ∧ l.startColumn = 1 ∧
      lineOf isFeed afterFormFeed.source.toList place = 1 ∧
      columnOf isFeed afterFormFeed.source.toList place = 2 := by
  have hreturn : '\r' ∉ afterFormFeed.source.toList := by decide
  have hfound : printFinding "m.py" 2 0 ∈ noPrint afterFormFeed := by decide
  obtain ⟨l, place, hl, hplaced⟩ := (rules_placed afterFormFeed hreturn).1 _ hfound
  -- The text stands at one place only.
  have hlt : place < 10 := by
    by_contra hbehind
    have hnone : afterFormFeed.source.toList.drop place = [] :=
      List.drop_eq_nil_of_le (Nat.not_lt.mp hbehind)
    have hoccurs := hplaced.occurs
    rw [hnone] at hoccurs
    exact absurd hoccurs (by decide)
  have hall : ∀ p < 10, printCall <+: afterFormFeed.source.toList.drop p → p = 1 := by decide
  obtain rfl := hall place hlt hplaced.occurs
  refine ⟨hreturn, _, hfound, l, 1, hl, hplaced, ?_, ?_, by decide, by decide⟩
  · rw [← Option.some.inj hl]
    rfl
  · rw [← Option.some.inj hl]
    rfl

end Rules

end LintHost
