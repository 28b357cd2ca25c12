/-
The ends of locations.

Data may leave out where a location ends, and then it ends where it starts.  What is taken over
from the start is what was written there, before it is checked: so a start that is no number is
reported a second time, for the end, and a start that is null makes an end that is null, of which
nothing is reported.  `EndRule` says what comes of the start and of the end in one direction, for
lines and for columns alike, and each time from what the data says of that direction only.

An end that is null may seem to get into a location that way.  But it takes a null start, and that
is reported.  `Draft` is a location whose ends may be missing, as the fields are checked one by
one; the ends of a draft that is accepted are there (`Draft.ends_there`), and so are those of every
location that stands anywhere in accepted data.  `Settles` says this of a check, and it passes from
the check of a part to that of the whole.
-/
import LintHost.Diagnostic.Validation
import LintHost.Proofs.Check
import LintHost.Proofs.Report.Region

namespace LintHost

open LintHost.Check

/-! ### The fields of a location -/

namespace Location

/-- A direction in which a location has a start and an end. -/
inductive Direction where
  | lines
  | columns
deriving DecidableEq, Repr

/-- The field of the start in a direction, and that of the end. -/
def Direction.startName : Direction → String
  | .lines => "start_line"
  | .columns => "start_column"

def Direction.endName : Direction → String
  | .lines => "end_line"
  | .columns => "end_column"

/-- The start in a direction, and the end. -/
def startIn (l : Location) : Direction → Int
  | .lines => l.startLine
  | .columns => l.startColumn

def endIn (l : Location) : Direction → Int
  | .lines => l.endLine
  | .columns => l.endColumn

/-- A location as its fields are checked one by one: its ends may be missing. -/
structure Draft where
  file : Option String
  startLine : Int
  startColumn : Int
  endLine : Option Int
  endColumn : Option Int

namespace Draft

def checkFields (entries : List (Value × Value)) : Check Draft :=
  Draft.mk
  <$> withDefault "file" none (nullable str) entries
  <*> withDefault "start_line" 1 int entries
  <*> withDefault "start_column" 1 int entries
  <*> checkEnd "start_line" "end_line" entries
  <*> checkEnd "start_column" "end_column" entries

/-- The location, with its start for an end that is missing. -/
def close (t : Draft) : Location :=
  ⟨t.file, t.startLine, t.startColumn, t.endLine.getD t.startLine,
    t.endColumn.getD t.startColumn⟩

/-- The region of a report, if neither end is missing. -/
def region? (t : Draft) : Option Report.Region :=
  match t.endLine, t.endColumn with
  | some endLine, some endColumn =>
    some ⟨max 1 t.startLine, max 1 t.startColumn, max 1 endLine, max 1 endColumn⟩
  | _, _ => none

/-- A draft has the ends of a location. -/
structure EndsAs (t : Draft) (l : Location) : Prop where
  closes : t.close = l
  line : t.endLine = some l.endLine
  column : t.endColumn = some l.endColumn
  region : t.region? = some (Report.Region.ofLocation l)

end Draft

variable {entries : List (Value × Value)} {d : Direction}

/-- A location is a draft that was closed. -/
theorem checkFields_eq_close (entries : List (Value × Value)) :
    checkFields entries = Draft.close <$> Draft.checkFields entries := by
  rw [checkFields, Draft.checkFields]
  simp only [map_seq, Functor.map_map]
  rfl

/-- What comes of the start in a direction, and of the end. -/
def checkStart (d : Direction) (entries : List (Value × Value)) : Check Int :=
  withDefault d.startName 1 int entries

def checkStop (d : Direction) (entries : List (Value × Value)) : Check (Option Int) :=
  checkEnd d.startName d.endName entries

/-- The file of a location. -/
def checkFile (entries : List (Value × Value)) : Check (Option String) :=
  withDefault "file" none (nullable str) entries

/-- All five checks accept where a draft is accepted. -/
theorem Draft.checkFields_eq_ok_iff {t : Draft} :
    Draft.checkFields entries = .ok t ↔
      checkFile entries = .ok t.file ∧
      (checkStart .lines entries = .ok t.startLine ∧ checkStop .lines entries = .ok t.endLine) ∧
      checkStart .columns entries = .ok t.startColumn ∧
      checkStop .columns entries = .ok t.endColumn := by
  constructor
  · intro h
    obtain ⟨_, endColumn, hfour, hendColumn, rfl⟩ := seq_eq_ok_iff.mp h
    obtain ⟨_, endLine, hthree, hendLine, rfl⟩ := seq_eq_ok_iff.mp hfour
    obtain ⟨_, startColumn, htwo, hstartColumn, rfl⟩ := seq_eq_ok_iff.mp hthree
    obtain ⟨_, startLine, hone, hstartLine, rfl⟩ := seq_eq_ok_iff.mp htwo
    obtain ⟨file, hfile, rfl⟩ := map_eq_ok_iff.mp hone
    exact ⟨hfile, ⟨hstartLine, hendLine⟩, hstartColumn, hendColumn⟩
  · rintro ⟨hfile, ⟨hstartLine, hendLine⟩, hstartColumn, hendColumn⟩
    show Draft.mk <$> checkFile entries <*> checkStart .lines entries
      <*> checkStart .columns entries <*> checkStop .lines entries
      <*> checkStop .columns entries = _
    rw [hfile, hstartLine, hstartColumn, hendLine, hendColumn]
    rfl

/-! ### Ends that are missing -/

/-- Data that says nothing of a field. -/
def Missing (o : Option Value) : Prop := o = none ∨ o = some .null

theorem rawEnd_of_missing {startName endName : String}
    (h : Missing (Value.lookupName endName entries)) :
    rawEnd startName endName entries =
      (Value.lookupName startName entries).getD (.int 1) := by
  rcases h with h | h <;> rw [rawEnd, h]

theorem rawEnd_of_given {startName endName : String} {v : Value}
    (h : Value.lookupName endName entries = some v) (hv : v ≠ .null) :
    rawEnd startName endName entries = v := by
  rw [rawEnd, h]
  split
  · rename_i hnone
    cases hnone
  · rename_i hnull
    exact absurd (Option.some.inj hnull) hv
  · rename_i hsome
    exact (Option.some.inj hsome).symm

theorem nullable_int {v : Value} (hv : v ≠ .null) : nullable int v = some <$> int v := by
  rw [nullable]
  exact hv

/-- An end that is missing, though the check accepts it, was null, and so was the start. -/
theorem lookup_start_of_end_none (h : checkStop d entries = .ok none) :
    Value.lookupName d.startName entries = some .null := by
  have hraw : rawEnd d.startName d.endName entries = .null := by
    by_contra hne
    rw [checkStop, checkEnd, under_eq_ok_iff, nullable_int hne] at h
    obtain ⟨n, -, hn⟩ := map_eq_ok_iff.mp h
    cases hn
  by_cases hmissing : Missing (Value.lookupName d.endName entries)
  · rw [rawEnd_of_missing hmissing] at hraw
    cases hstart : Value.lookupName d.startName entries with
    | none =>
      rw [hstart] at hraw
      cases hraw
    | some v =>
      rw [hstart] at hraw
      exact congrArg some hraw
  · cases hend : Value.lookupName d.endName entries with
    | none => exact absurd (Or.inl hend) hmissing
    | some v =>
      have hv : v ≠ .null := by
        rintro rfl
        exact hmissing (Or.inr hend)
      exact absurd ((rawEnd_of_given hend hv).symm.trans hraw) hv

/-- A start that is accepted makes an end that is there. -/
theorem end_there {n : Int} {e : Option Int} (hstart : checkStart d entries = .ok n)
    (hend : checkStop d entries = .ok e) : ∃ m, e = some m := by
  cases e with
  | some m => exact ⟨m, rfl⟩
  | none =>
    rw [checkStart, withDefault, lookup_start_of_end_none hend] at hstart
    cases hstart

/-- **No end of a draft that is accepted is missing**, so closing it takes no start for an end. -/
theorem Draft.ends_there {t : Draft} (h : Draft.checkFields entries = .ok t) :
    t.EndsAs t.close := by
  obtain ⟨-, ⟨hstartLine, hendLine⟩, hstartColumn, hendColumn⟩ := Draft.checkFields_eq_ok_iff.mp h
  obtain ⟨line, hline⟩ := end_there hstartLine hendLine
  obtain ⟨column, hcolumn⟩ := end_there hstartColumn hendColumn
  obtain ⟨file, startLine, startColumn, endLine, endColumn⟩ := t
  obtain rfl : endLine = some line := hline
  obtain rfl : endColumn = some column := hcolumn
  exact ⟨rfl, rfl, rfl, rfl⟩

/-! ### What is reported, and where -/

/-- What is reported inside a field, by the checks of all five. -/
theorem within_check (name : String) (entries : List (Value × Value)) :
    (check (.map entries)).within name =
      (checkFile entries).within name
      ++ (checkStart .lines entries).within name ++ (checkStart .columns entries).within name
      ++ (checkStop .lines entries).within name ++ (checkStop .columns entries).within name := by
  show (checkFields entries).within name = _
  rw [checkFields]
  simp only [within_seq, within_map]
  rfl

/-- The file is reported by its own check. -/
theorem within_file (entries : List (Value × Value)) :
    (check (.map entries)).within "file" = (checkFile entries).within "file" := by
  simp [within_check, checkFile, checkStart, checkStop, checkEnd, withDefault,
    Direction.startName, Direction.endName, within_under_of_ne]

/-- The start is reported by its own check. -/
theorem within_start (d : Direction) (entries : List (Value × Value)) :
    (check (.map entries)).within d.startName = (checkStart d entries).within d.startName := by
  cases d <;> simp [within_check, checkFile, checkStart, checkStop, checkEnd, withDefault,
    Direction.startName, Direction.endName, within_under_of_ne]

/-- The end is reported by its own check. -/
theorem within_end (d : Direction) (entries : List (Value × Value)) :
    (check (.map entries)).within d.endName = (checkStop d entries).within d.endName := by
  cases d <;> simp [within_check, checkFile, checkStart, checkStop, checkEnd, withDefault,
    Direction.startName, Direction.endName, within_under_of_ne]

/-- A location has the numbers that its checks accept. -/
theorem numbers_of_check {l : Location} (h : check (.map entries) = .ok l) (d : Direction) :
    checkStart d entries = .ok (l.startIn d) ∧ checkStop d entries = .ok (some (l.endIn d)) := by
  have hclose : checkFields entries = .ok l := h
  rw [checkFields_eq_close] at hclose
  obtain ⟨t, ht, rfl⟩ := map_eq_ok_iff.mp hclose
  obtain ⟨-, hline, hcolumn⟩ := Draft.ends_there ht
  obtain ⟨-, ⟨hstartLine, hendLine⟩, hstartColumn, hendColumn⟩ := Draft.checkFields_eq_ok_iff.mp ht
  cases d with
  | lines => exact ⟨hstartLine, hline ▸ hendLine⟩
  | columns => exact ⟨hstartColumn, hcolumn ▸ hendColumn⟩

/-- A field is reported as a check reports, and a location has there what the check accepts. -/
structure Comes (checked : Check Location) (name : String) (get : Location → Int)
    (c : Check Int) : Prop where
  reports : checked.within name = c.problems
  accepts : ∀ l, checked = .ok l → c = .ok (get l)

theorem comes_start_of_lookup {v : Value} (h : Value.lookupName d.startName entries = some v) :
    Comes (check (.map entries)) d.startName (·.startIn d) (int v) := by
  have hstart : checkStart d entries = under (.field d.startName) (int v) := by
    rw [checkStart, withDefault, h]
  refine ⟨?_, ?_⟩
  · rw [within_start, hstart, within_under_self]
  · intro l hl
    have hnumber := (numbers_of_check hl d).1
    rw [hstart] at hnumber
    exact under_eq_ok_iff.mp hnumber

theorem comes_start_of_absent (h : Value.lookupName d.startName entries = none) :
    Comes (check (.map entries)) d.startName (·.startIn d) (.ok 1) := by
  have hstart : checkStart d entries = .ok 1 := by
    rw [checkStart, withDefault, h]
    rfl
  refine ⟨?_, ?_⟩
  · rw [within_start, hstart]
    rfl
  · intro l hl
    exact hstart.symm.trans (numbers_of_check hl d).1

theorem comes_end_of_rawEnd {v : Value} (h : rawEnd d.startName d.endName entries = v)
    (hv : v ≠ .null) : Comes (check (.map entries)) d.endName (·.endIn d) (int v) := by
  have hstop : checkStop d entries = under (.field d.endName) (some <$> int v) := by
    rw [checkStop, checkEnd, h, nullable_int hv]
  refine ⟨?_, ?_⟩
  · rw [within_end, hstop, within_under_self, problems_map]
  · intro l hl
    have hnumber := (numbers_of_check hl d).2
    rw [hstop] at hnumber
    obtain ⟨n, hn, hsame⟩ := map_eq_ok_iff.mp (under_eq_ok_iff.mp hnumber)
    rw [hn, Option.some.inj hsame]

/-! ### What comes of the start and of the end -/

/-- What comes of the start and of the end of a location in a direction, from what the data says of
them. -/
structure EndRule (entries : List (Value × Value)) (d : Direction) : Prop where
  /-- Nothing is said of either: both are one. -/
  neither : Missing (Value.lookupName d.endName entries) →
    Value.lookupName d.startName entries = none →
    Comes (check (.map entries)) d.startName (·.startIn d) (.ok 1) ∧
      Comes (check (.map entries)) d.endName (·.endIn d) (.ok 1)
  /-- A start that is null is reported, and an end that is taken from it is not. -/
  nullStart : Missing (Value.lookupName d.endName entries) →
    Value.lookupName d.startName entries = some .null →
    (check (.map entries)).within d.startName = [⟨[], .intType⟩] ∧
      (check (.map entries)).within d.endName = []
  /-- The end is taken from the start: they are the same number, or have the same fault. -/
  taken : Missing (Value.lookupName d.endName entries) →
    ∀ v, Value.lookupName d.startName entries = some v → v ≠ .null →
      ((∃ n, int v = .ok n) ∨ ∃ f, int v = fault f) ∧
      Comes (check (.map entries)) d.startName (·.startIn d) (int v) ∧
      Comes (check (.map entries)) d.endName (·.endIn d) (int v)
  /-- The end is given: it is checked for itself. -/
  given : ∀ v, Value.lookupName d.endName entries = some v → v ≠ .null →
    ((∃ n, int v = .ok n) ∨ ∃ f, int v = fault f) ∧
    Comes (check (.map entries)) d.endName (·.endIn d) (int v)

theorem endRule (entries : List (Value × Value)) (d : Direction) : EndRule entries d := by
  refine ⟨?_, ?_, ?_, ?_⟩
  · intro hmissing hstart
    have hraw : rawEnd d.startName d.endName entries = .int 1 := by
      rw [rawEnd_of_missing hmissing, hstart]
      rfl
    exact ⟨comes_start_of_absent hstart, comes_end_of_rawEnd hraw Value.noConfusion⟩
  · intro hmissing hstart
    have hraw : rawEnd d.startName d.endName entries = .null := by
      rw [rawEnd_of_missing hmissing, hstart]
      rfl
    refine ⟨(comes_start_of_lookup hstart).reports, ?_⟩
    rw [within_end, checkStop, checkEnd, hraw]
    rfl
  · intro hmissing v hstart hv
    have hraw : rawEnd d.startName d.endName entries = v := by
      rw [rawEnd_of_missing hmissing, hstart]
      rfl
    exact ⟨int_single v, comes_start_of_lookup hstart, comes_end_of_rawEnd hraw hv⟩
  · intro v hend hv
    exact ⟨int_single v, comes_end_of_rawEnd (rawEnd_of_given hend hv) hv⟩

/-- A location is accepted exactly where nothing is reported of its fields. -/
theorem accepted_iff (entries : List (Value × Value)) :
    (∃ l, check (.map entries) = .ok l) ↔
      (check (.map entries)).within "file" = [] ∧
      ∀ d : Direction, (check (.map entries)).within d.startName = [] ∧
        (check (.map entries)).within d.endName = [] := by
  constructor
  · rintro ⟨l, hl⟩
    rw [hl]
    exact ⟨rfl, fun _ => ⟨rfl, rfl⟩⟩
  · rintro ⟨hfile, hnumbers⟩
    rw [within_file] at hfile
    obtain ⟨file, hfile⟩ := withDefault_exists_ok (single_nullable single_str) hfile
    have hstart : ∀ d : Direction, ∃ n, checkStart d entries = .ok n := by
      intro d
      have hnone := (hnumbers d).1
      rw [within_start] at hnone
      exact withDefault_exists_ok int_single hnone
    have hend : ∀ d : Direction, ∃ e, checkStop d entries = .ok e := by
      intro d
      have hnone := (hnumbers d).2
      rw [within_end] at hnone
      exact (single_nullable int_single _).exists_ok_of_within hnone
    obtain ⟨startLine, hstartLine⟩ := hstart .lines
    obtain ⟨startColumn, hstartColumn⟩ := hstart .columns
    obtain ⟨endLine, hendLine⟩ := hend .lines
    obtain ⟨endColumn, hendColumn⟩ := hend .columns
    have ht : Draft.checkFields entries = .ok ⟨file, startLine, startColumn, endLine, endColumn⟩ :=
      Draft.checkFields_eq_ok_iff.mpr ⟨hfile, ⟨hstartLine, hendLine⟩, hstartColumn, hendColumn⟩
    refine ⟨Draft.close ⟨file, startLine, startColumn, endLine, endColumn⟩, ?_⟩
    show checkFields entries = _
    rw [checkFields_eq_close, ht]
    rfl

end Location

/-! ### Locations anywhere in accepted data -/

namespace Value

/-- What lies one step further down. -/
def part? : PathStep → Value → Option Value
  | .field name, v =>
    match v.view with
    | .map entries => lookupName name entries
    | _ => none
  | .index i, v => (Check.itemsOf? v).bind (·[i]?)

/-- What lies at the end of a way. -/
def along? (v : Value) : List PathStep → Option Value
  | [] => some v
  | s :: rest => (part? s v).bind (·.along? rest)

end Value

/-- The locations in something, each with the way to it. -/
abbrev Places := List (List PathStep × Location)

namespace Places

/-- Places one step further down. -/
def below (s : PathStep) (ps : Places) : Places := ps.map fun p => (s :: p.1, p.2)

variable {α : Type}

def ofOption (places : α → Places) (o : Option α) : Places := o.toList.flatMap places

def ofItems (places : α → Places) (as : List α) : Places :=
  as.zipIdx.flatMap fun a => (places a.1).below (.index a.2)

end Places

def Location.places (l : Location) : Places := [([], l)]

def Fix.places (f : Fix) : Places :=
  (Places.ofOption Location.places f.location).below (.field "location")

def Diagnostic.places (d : Diagnostic) : Places :=
  (Places.ofOption Location.places d.location).below (.field "location")
    ++ (Places.ofItems Fix.places d.fixes).below (.field "fixes")

def AnalysisResult.places (r : AnalysisResult) : Places :=
  (Places.ofItems Diagnostic.places r.diagnostics).below (.field "diagnostics")

namespace Location

/-- A location comes from what lies at the end of a way, and its ends are there. -/
def SettledAt (data : Value) (way : List PathStep) (l : Location) : Prop :=
  ∃ v entries t, data.along? way = some v ∧ v.view = .map entries ∧
    Draft.checkFields entries = .ok t ∧ t.EndsAs l

theorem SettledAt.below {data v : Value} {s : PathStep} {way : List PathStep} {l : Location}
    (hpart : data.part? s = some v) (h : SettledAt v way l) : SettledAt data (s :: way) l := by
  obtain ⟨u, entries, t, hway, hview, ht, hends⟩ := h
  refine ⟨u, entries, t, ?_, hview, ht, hends⟩
  rw [Value.along?, hpart]
  exact hway

end Location

open Location (SettledAt)

/-- A check accepts no location whose ends are not there. -/
def Settles {α : Type} (check : Value → Check α) (places : α → Places) : Prop :=
  ∀ v a, check v = .ok a → ∀ p ∈ places a, SettledAt v p.1 p.2

namespace Settles

variable {α : Type} {check : Value → Check α} {places : α → Places}

theorem nullable (h : Settles check places) :
    Settles (Check.nullable check) (Places.ofOption places) := by
  intro v o hv p hp
  obtain ⟨a, ha, hpa⟩ := List.mem_flatMap.mp hp
  exact h v a (nullable_eq_ok hv a (Option.mem_toList.mp ha)) p hpa

theorem tuple (h : Settles check places) :
    Settles (Check.tuple check) (Places.ofItems places) := by
  intro v as hv p hp
  obtain ⟨vs, hvs, hitems⟩ := tuple_eq_ok hv
  obtain ⟨⟨a, i⟩, hai, hpa⟩ := List.mem_flatMap.mp hp
  obtain ⟨q, hq, rfl⟩ := List.mem_map.mp hpa
  obtain ⟨u, hu, hua⟩ := hitems i a (List.mem_zipIdx_iff_getElem?.mp hai)
  refine SettledAt.below ?_ (h u a hua q hq)
  show (Check.itemsOf? v).bind (·[i]?) = some u
  rw [hvs]
  exact hu

/-- The locations in a field whose default has none. -/
theorem field (h : Settles check places) {name : String} {default a : α}
    {entries : List (Value × Value)} {data : Value} (hdefault : places default = [])
    (hview : data.view = .map entries) (ha : withDefault name default check entries = .ok a) :
    ∀ p ∈ (places a).below (.field name), SettledAt data p.1 p.2 := by
  intro p hp
  obtain ⟨q, hq, rfl⟩ := List.mem_map.mp hp
  rcases withDefault_eq_ok ha with rfl | ⟨v, hv, hva⟩
  · rw [hdefault] at hq
    cases hq
  · refine SettledAt.below ?_ (h v a hva q hq)
    rw [Value.part?, hview]
    exact hv

end Settles

theorem settles_location : Settles Location.check Location.places := by
  intro v l hl p hp
  obtain rfl := List.mem_singleton.mp hp
  obtain ⟨entries, hview, hentries⟩ := model_eq_ok_iff.mp hl
  rw [Location.checkFields_eq_close] at hentries
  obtain ⟨t, ht, rfl⟩ := map_eq_ok_iff.mp hentries
  exact ⟨v, entries, t, rfl, hview, ht, Location.Draft.ends_there ht⟩

theorem settles_fix : Settles Fix.check Fix.places := by
  intro v f hf
  obtain ⟨entries, hview, hentries⟩ := model_eq_ok_iff.mp hf
  obtain ⟨_, location, hrest, hlocation, rfl⟩ := seq_eq_ok_iff.mp hentries
  obtain ⟨_, replacement, htitle, -, rfl⟩ := seq_eq_ok_iff.mp hrest
  obtain ⟨title, -, rfl⟩ := map_eq_ok_iff.mp htitle
  exact settles_location.nullable.field rfl hview hlocation

theorem settles_diagnostic : Settles Diagnostic.check Diagnostic.places := by
  intro v d hd p hp
  obtain ⟨entries, hview, hentries⟩ := model_eq_ok_iff.mp hd
  obtain ⟨_, fixes, hfive, hfixes, rfl⟩ := seq_eq_ok_iff.mp hentries
  obtain ⟨_, location, hfour, hlocation, rfl⟩ := seq_eq_ok_iff.mp hfive
  obtain ⟨_, origin, hthree, -, rfl⟩ := seq_eq_ok_iff.mp hfour
  obtain ⟨_, message, htwo, -, rfl⟩ := seq_eq_ok_iff.mp hthree
  obtain ⟨_, severity, hone, -, rfl⟩ := seq_eq_ok_iff.mp htwo
  obtain ⟨ruleCode, -, rfl⟩ := map_eq_ok_iff.mp hone
  rcases List.mem_append.mp hp with hp | hp
  · exact settles_location.nullable.field rfl hview hlocation p hp
  · exact settles_fix.tuple.field rfl hview hfixes p hp

theorem settles_result : Settles AnalysisResult.check AnalysisResult.places := by
  intro v r hr
  obtain ⟨entries, hview, hentries⟩ := model_eq_ok_iff.mp hr
  obtain ⟨_, errors, hrest, -, rfl⟩ := seq_eq_ok_iff.mp hentries
  obtain ⟨diagnostics, hdiagnostics, rfl⟩ := map_eq_ok_iff.mp hrest
  exact settles_diagnostic.tuple.field rfl hview hdiagnostics

/-- The way to the location of a finding of a result. -/
def locationWay (i : Nat) : List PathStep :=
  [.field "diagnostics", .index i, .field "location"]

theorem mem_places {r : AnalysisResult} {i : Nat} {d : Diagnostic} {l : Location}
    (hd : r.diagnostics[i]? = some d) (hl : d.location = some l) :
    (locationWay i, l) ∈ r.places := by
  have hplace : ([.field "location"], l) ∈ d.places := by
    refine List.mem_append_left _ ?_
    rw [hl]
    exact List.mem_singleton.mpr rfl
  refine List.mem_map.mpr ⟨([.index i, .field "location"], l), ?_, rfl⟩
  refine List.mem_flatMap.mpr ⟨(d, i), List.mem_zipIdx_iff_getElem?.mpr hd, ?_⟩
  exact List.mem_map.mpr ⟨_, hplace, rfl⟩

/-- The region of a finding is made of the numbers of a draft whose ends are there. -/
theorem region_of_result {data : Value} {r : AnalysisResult}
    (h : AnalysisResult.check data = .ok r) {i : Nat} {d : Diagnostic} {l : Location}
    (hd : r.diagnostics[i]? = some d) (hl : d.location = some l) :
    ∃ v entries t, data.along? (locationWay i) = some v ∧ v.view = .map entries ∧
      Location.Draft.checkFields entries = .ok t ∧ t.region? = some (Report.region d) := by
  obtain ⟨v, entries, t, hway, hview, ht, hends⟩ := settles_result data r h _ (mem_places hd hl)
  refine ⟨v, entries, t, hway, hview, ht, ?_⟩
  rw [Report.region_of_location hl]
  exact hends.region

/-- **The ends of a location, in each direction for itself.**  An end that is missing is taken from
the start as it was written, with whatever is wrong with it; an end that is given is checked for
itself; and a location is accepted where nothing is reported.  So the ends of every location in
accepted data are there, at whatever place it stands, and no report meets one that is not. -/
theorem ends_settled :
    (∀ entries d, Location.EndRule entries d) ∧
    (∀ entries, (∃ l, Location.check (.map entries) = .ok l) ↔
      (Location.check (.map entries)).within "file" = [] ∧
      ∀ d : Location.Direction, (Location.check (.map entries)).within d.startName = [] ∧
        (Location.check (.map entries)).within d.endName = []) ∧
    (Settles Location.check Location.places ∧ Settles Fix.check Fix.places ∧
      Settles Diagnostic.check Diagnostic.places ∧
      Settles AnalysisResult.check AnalysisResult.places) ∧
    ∀ data r, AnalysisResult.check data = .ok r →
      ∀ i d l, r.diagnostics[i]? = some d → d.location = some l →
        ∃ v entries t, data.along? (locationWay i) = some v ∧ v.view = .map entries ∧
          Location.Draft.checkFields entries = .ok t ∧ t.region? = some (Report.region d) :=
  ⟨Location.endRule, Location.accepted_iff,
    ⟨settles_location, settles_fix, settles_diagnostic, settles_result⟩,
    fun _ _ h _ _ _ hd hl => region_of_result h hd hl⟩

/-- Lines that are spelled as a text, columns that are a list, and a result with an end of its
own. -/
theorem ends_settled_of_spellings :
    let entries := Json.toEntries
      [("start_line", .str "+07"), ("end_line", .null), ("start_column", .arr [])]
    let place := Json.obj [("start_line", .str "+07"), ("end_column", .float (.ofInt 4))]
    let data := (Json.obj [("diagnostics", .arr [.obj [("rule_code", .str "R"),
      ("message", .str "m"), ("location", place)]])]).toValue
    let d : Diagnostic := ⟨"R", .warning, "m", "", some ⟨none, 7, 1, 7, 4⟩, []⟩
    Check.int (.str "+07") = .ok 7 ∧
      (Location.check (.map entries)).within "end_line" = [] ∧
      (Location.check (.map entries)).within "start_column" = [⟨[], .intType⟩] ∧
      (Location.check (.map entries)).within "end_column" = [⟨[], .intType⟩] ∧
      (¬∃ l, Location.check (.map entries) = .ok l) ∧
      AnalysisResult.check data = .ok ⟨[d], []⟩ ∧
      ∃ v, data.along? (locationWay 0) = some v ∧ Report.region d = ⟨7, 1, 7, 4⟩ := by
  intro entries place data d
  obtain ⟨hrule, haccepted, -, hregion⟩ := ends_settled
  obtain ⟨-, -, hlines⟩ :=
    (hrule entries .lines).taken (Or.inr rfl) (.str "+07") rfl Value.noConfusion
  obtain ⟨-, hstart, hcolumns⟩ :=
    (hrule entries .columns).taken (Or.inl rfl) (.list []) rfl Value.noConfusion
  have hdata : AnalysisResult.check data = .ok ⟨[d], []⟩ := by rfl
  obtain ⟨v, -, -, hway, -, -, -⟩ := hregion data _ hdata 0 d ⟨none, 7, 1, 7, 4⟩ rfl rfl
  refine ⟨by rfl, hlines.reports, hstart.reports, hcolumns.reports, ?_, hdata, v, hway, by rfl⟩
  rw [haccepted]
  rintro ⟨-, hnone⟩
  have hfault : ([⟨[], .intType⟩] : List Problem) = [] :=
    hstart.reports.symm.trans (hnone .columns).1
  cases hfault

end LintHost
