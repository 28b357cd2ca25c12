/-
The regions of a report.

A region counts lines and columns from one, and each of its four numbers is raised to one by itself.
Raising keeps the order of numbers, but the order of positions is that of their lines first, and two
lines may be raised to the same one.  Then the columns decide, which had no say before.

`Position.raised_le_raised_iff` says that an order of positions is lost in no other way, and
`region_keeps_order` what this means for the region of a finding; `region_of_raised_lines` is a
location that ends behind its start, in a region that ends before it.
-/
import LintHost.Report.Sarif

namespace LintHost

/-- A position in a file. -/
structure Position where
  line : Int
  column : Int
deriving DecidableEq, Repr

namespace Position

/-- The lines decide, and the columns within a line. -/
instance : LE Position :=
  ⟨fun p q => p.line < q.line ∨ p.line = q.line ∧ p.column ≤ q.column⟩

theorem le_iff {p q : Position} :
    p ≤ q ↔ p.line < q.line ∨ p.line = q.line ∧ p.column ≤ q.column := Iff.rfl

instance (p q : Position) : Decidable (p ≤ q) := inferInstanceAs (Decidable (_ ∨ _))

/-- The position with a line and a column that are at least one. -/
def raised (p : Position) : Position := ⟨max 1 p.line, max 1 p.column⟩

/-- Two positions whose lines are raised to the first one are ordered by their columns. -/
theorem raised_le_raised_of_line_le_one {p q : Position} (hp : p.line ≤ 1) (hq : q.line ≤ 1) :
    p.raised ≤ q.raised ↔ ¬(1 < p.column ∧ q.column < p.column) := by
  have hline : p.raised.line = q.raised.line :=
    (Int.max_eq_left hp).trans (Int.max_eq_left hq).symm
  have hcolumn : p.raised.column ≤ q.raised.column ↔ ¬(1 < p.column ∧ q.column < p.column) := by
    show max 1 p.column ≤ max 1 q.column ↔ _
    omega
  rw [le_iff, ← hcolumn]
  omega

/-- Raising loses the order of two positions only where it loses the difference of their lines. -/
theorem raised_le_raised_iff {p q : Position} (h : p ≤ q) :
    p.raised ≤ q.raised ↔
      ¬(p.line < q.line ∧ q.line ≤ 1 ∧ 1 < p.column ∧ q.column < p.column) := by
  by_cases hq : q.line ≤ 1
  · have hp : p.line ≤ 1 := by
      rcases h with h | h <;> omega
    rw [raised_le_raised_of_line_le_one hp hq]
    rcases h with hline | ⟨hline, hcolumn⟩ <;> omega
  · have hkeeps : p.raised ≤ q.raised := by
      rcases h with hline | ⟨hline, hcolumn⟩
      · refine Or.inl ?_
        show max 1 p.line < max 1 q.line
        omega
      · refine Or.inr ⟨congrArg (max 1) hline, ?_⟩
        show max 1 p.column ≤ max 1 q.column
        omega
    exact iff_of_true hkeeps fun hlost => hq hlost.2.1

end Position

/-- Where a location starts and where it ends. -/
def Location.first (l : Location) : Position := ⟨l.startLine, l.startColumn⟩
def Location.last (l : Location) : Position := ⟨l.endLine, l.endColumn⟩

namespace Report

/-- Where a region starts and where it ends. -/
def Region.first (g : Region) : Position := ⟨g.startLine, g.startColumn⟩
def Region.last (g : Region) : Position := ⟨g.endLine, g.endColumn⟩

theorem region_of_location {d : Diagnostic} {l : Location} (h : d.location = some l) :
    region d = Region.ofLocation l := by
  rw [region, h]
  rfl

/-- **The numbers of a region are at least one; those of a location that are, it takes as they are.
The region of a location that does not start behind its end does not either, but for one case: the
lines differ and are both raised to the first, and the columns stand the other way round.** -/
theorem region_keeps_order (d : Diagnostic) (l : Location) (hlocation : d.location = some l) :
    (1 ≤ (region d).startLine ∧ 1 ≤ (region d).startColumn ∧
      1 ≤ (region d).endLine ∧ 1 ≤ (region d).endColumn) ∧
    (l.first ≤ l.last → ((region d).first ≤ (region d).last ↔
      ¬(l.startLine < l.endLine ∧ l.endLine ≤ 1 ∧
        1 < l.startColumn ∧ l.endColumn < l.startColumn))) ∧
    (1 ≤ l.startLine → 1 ≤ l.startColumn → 1 ≤ l.endLine → 1 ≤ l.endColumn →
      region d = ⟨l.startLine, l.startColumn, l.endLine, l.endColumn⟩) := by
  rw [region_of_location hlocation]
  have hfirst : (Region.ofLocation l).first = l.first.raised := rfl
  have hlast : (Region.ofLocation l).last = l.last.raised := rfl
  refine ⟨⟨Int.le_max_left _ _, Int.le_max_left _ _, Int.le_max_left _ _, Int.le_max_left _ _⟩,
    ?_, ?_⟩
  · intro h
    rw [hfirst, hlast]
    exact Position.raised_le_raised_iff h
  · intro hstartLine hstartColumn hendLine hendColumn
    rw [Region.ofLocation, Int.max_eq_right hstartLine, Int.max_eq_right hstartColumn,
      Int.max_eq_right hendLine, Int.max_eq_right hendColumn]

/-- A finding at a location. -/
def findingAt (l : Location) : Diagnostic := ⟨"R", .warning, "m", "", some l, []⟩

/-- A location whose lines are both raised, with its columns in order, and one that is taken as it
is. -/
theorem region_keeps_order_of_raised :
    let low : Location := ⟨none, -2, 5, 0, 7⟩
    let plain : Location := ⟨none, 2, 9, 4, 1⟩
    (low.first ≤ low.last ∧ (region (findingAt low)).first ≤ (region (findingAt low)).last) ∧
      (plain.first ≤ plain.last ∧ region (findingAt plain) = ⟨2, 9, 4, 1⟩) := by
  intro low plain
  obtain ⟨-, horder, -⟩ := region_keeps_order (findingAt low) low rfl
  obtain ⟨-, -, hcopy⟩ := region_keeps_order (findingAt plain) plain rfl
  exact ⟨⟨by decide, (horder (by decide)).mpr (by decide)⟩,
    ⟨by decide, hcopy (by decide) (by decide) (by decide) (by decide)⟩⟩

/-- The order is lost: a location from line 0, column 5, to line 1, column 3. -/
theorem region_of_raised_lines :
    let l : Location := ⟨none, 0, 5, 1, 3⟩
    l.first ≤ l.last ∧ region (findingAt l) = ⟨1, 5, 1, 3⟩ ∧
      ¬(region (findingAt l)).first ≤ (region (findingAt l)).last := by
  decide

end Report

end LintHost
