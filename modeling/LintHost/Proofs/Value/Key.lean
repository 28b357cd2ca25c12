/-
Keys of mappings.

Keys are compared as values, and several spellings can be one key: a truth value, a whole number and
a floating-point number, two moments of one instant.  `Key` is what the spellings of one key have in
common, and `sameKey_iff` says that two values are one key exactly when they have it in common.  So
being one key goes from values to values, which the comparison itself does not show.

With that, entries are a finite map: `lookup_put` says what is found after an entry was put.  Where
no two entries have one key, `Distinct`, every entry is found by its key.

`Sound` values have distinct keys in every mapping that can be reached through mappings, also where
a value holds itself.
-/
import LintHost.Value.Basic
import Mathlib.Tactic.SplitIfs

namespace LintHost

namespace Binary64

/-- A floating-point number that is no whole one has one spelling. -/
theorem sameValue_iff {x y : Binary64} (hx : x.toInt? = none) (hxn : x ≠ .nan) :
    x.sameValue y = true ↔ x = y := by
  cases x with
  | nan => exact absurd rfl hxn
  | infinite s => cases y <;> simp [sameValue]
  | finite s m e =>
    cases y with
    | nan => simp [sameValue]
    | infinite t => simp [sameValue]
    | finite t n f =>
      have hm : m ≠ 0 := by
        rintro rfl
        simp [toInt?] at hx
      simp [sameValue, hm]
      constructor
      · rintro ⟨⟨rfl, rfl⟩, rfl⟩
        exact ⟨rfl, rfl, rfl⟩
      · rintro ⟨rfl, rfl, rfl⟩
        exact ⟨⟨rfl, rfl⟩, rfl⟩

end Binary64

/-- What the spellings of one key have in common. -/
inductive Key where
  | null
  | text (s : String)
  | day (d : Date)
  /-- Microseconds by the common clock, or by a clock of which nothing is known. -/
  | moment (microsecond : Int ⊕ Nat)
  | bytes (bs : List UInt8)
  /-- A not-a-number without a word of its own. -/
  | undefined (origin : Origin)
  /-- A number, or the not-a-number with a word of its own. -/
  | number (n : Option (Int ⊕ Binary64))
deriving DecidableEq

/-- The key of a moment. -/
def Moment.key (t : Moment) : Int ⊕ Nat :=
  match t.offset with
  | some a => .inl (t.clock - a * 60000000)
  | none => .inr t.clock

theorem Moment.same_iff {s t : Moment} : s.same t = true ↔ s.key = t.key := by
  unfold Moment.same Moment.key
  cases s.offset <;> cases t.offset <;> simp

/-- The key of a floating-point number. -/
def Binary64.key : Binary64 → Option (Int ⊕ Binary64)
  | .nan => none
  | x =>
    match x.toInt? with
    | some n => some (.inl n)
    | none => some (.inr x)

namespace Value

/-- The key that a value is a spelling of. Collections are no keys. -/
def key? : Value → Option Key
  | .null => some .null
  | .bool b => some (.number (some (.inl (if b then 1 else 0))))
  | .int n => some (.number (some (.inl n)))
  | .float x => some (.number x.key)
  | .undefined o => some (.undefined o)
  | .str s => some (.text s)
  | .date d => some (.day d)
  | .moment t => some (.moment t.key)
  | .bytes bs => some (.bytes bs)
  | .list _ | .pair _ _ | .set _ | .map _ | .knot _ _ | .tie _ => none

end Value

namespace Binary64

theorem key_of_whole {x : Binary64} {n : Int} (h : x.toInt? = some n) : x.key = some (.inl n) := by
  cases x with
  | nan => cases h
  | infinite s => cases h
  | finite s m e => simp only [key, h]

theorem key_of_fraction {x : Binary64} (h : x.toInt? = none) :
    x.key = if x = .nan then none else some (.inr x) := by
  cases x with
  | nan => rfl
  | infinite s => rfl
  | finite s m e => simp only [key, h, reduceCtorEq, if_false]

end Binary64

namespace Value

/-! ### One key -/

/-- Floating-point numbers are one key as numbers are, except the two not-a-numbers. -/
theorem sameKey_float {x y : Binary64} (h : ¬(x = .nan ∧ y = .nan)) :
    sameKey (.float x) (.float y) =
      match (Value.float x).number?, (Value.float y).number? with
      | some (.inl n), some (.inl m) => n == m
      | some (.inr x), some (.inr y) => x.sameValue y
      | _, _ => false := by
  cases x <;> cases y <;> first | rfl | exact absurd ⟨rfl, rfl⟩ h

theorem sameKey_float_iff {x y : Binary64} :
    sameKey (.float x) (.float y) = true ↔ x.key = y.key := by
  by_cases hnan : x = .nan ∧ y = .nan
  · obtain ⟨rfl, rfl⟩ := hnan
    exact ⟨fun _ => rfl, fun _ => rfl⟩
  · rw [sameKey_float hnan]
    cases hx : x.toInt? with
    | some n =>
      rw [Binary64.key_of_whole hx]
      cases hy : y.toInt? with
      | some m => simp [number?, hx, hy, Binary64.key_of_whole hy]
      | none =>
        rw [Binary64.key_of_fraction hy]
        simp only [number?, hx, hy]
        split_ifs <;> simp
    | none =>
      rw [Binary64.key_of_fraction hx]
      cases hy : y.toInt? with
      | some m =>
        rw [Binary64.key_of_whole hy]
        simp only [number?, hx, hy]
        split_ifs <;> simp
      | none =>
        rw [Binary64.key_of_fraction hy]
        simp only [number?, hx, hy]
        by_cases hxn : x = .nan
        · subst hxn
          have hyn : y ≠ .nan := fun hyn => hnan ⟨rfl, hyn⟩
          simp [Binary64.sameValue, hyn]
        · rw [Binary64.sameValue_iff hx hxn, if_neg hxn]
          split_ifs with hyn
          · simp [hyn, hxn]
          · simp

/-- **Two values are one key exactly when they are spellings of one.** -/
theorem sameKey_iff {a b : Value} :
    sameKey a b = true ↔ a.key?.isSome = true ∧ a.key? = b.key? := by
  cases a <;> cases b
  case float.float x y =>
    rw [sameKey_float_iff]
    simp [key?]
  case float.bool x b | float.int x n | bool.float b x | int.float n x =>
    cases hx : x.toInt? with
    | some m => simp [sameKey, key?, number?, hx, Binary64.key_of_whole hx]
    | none =>
      simp only [sameKey, key?, number?, hx, Binary64.key_of_fraction hx]
      split_ifs <;> simp
  all_goals simp [sameKey, key?, number?, Moment.same_iff]

/-- What is one key with a value is one key with the same values. -/
theorem sameKey_congr {a b c : Value} (h : sameKey b c = true) : sameKey a b = sameKey a c := by
  rw [Bool.eq_iff_iff, sameKey_iff, sameKey_iff, (sameKey_iff.mp h).2]

/-! ### Entries -/

/-- No two entries have one key, and every key is one. -/
structure Distinct (es : List (Value × Value)) : Prop where
  keys : ∀ e ∈ es, e.1.key?.isSome = true
  nodup : (es.map fun e => e.1.key?).Nodup

theorem Distinct.tail {e : Value × Value} {es : List (Value × Value)} (h : Distinct (e :: es)) :
    Distinct es :=
  ⟨fun f hf => h.keys f (List.mem_cons_of_mem _ hf), (List.nodup_cons.mp h.nodup).2⟩

theorem Distinct.head_ne {e f : Value × Value} {es : List (Value × Value)} (h : Distinct (e :: es))
    (hf : f ∈ es) : e.1.key? ≠ f.1.key? := by
  intro hsame
  have hnot := (List.nodup_cons.mp h.nodup).1
  simp only [List.mem_map, not_exists, not_and] at hnot
  exact hnot f hf hsame.symm

theorem Distinct.nil : Distinct [] := ⟨by simp, by simp⟩

/-- What is found is the value of an entry, and its key has a spelling there. -/
theorem mem_of_lookup {k v : Value} {es : List (Value × Value)} (h : lookup k es = some v) :
    ∃ k', (k', v) ∈ es ∧ sameKey k' k = true := by
  induction es with
  | nil => cases h
  | cons e rest ih =>
    obtain ⟨spelled, old⟩ := e
    rw [lookup] at h
    split_ifs at h with hhere
    · rw [← Option.some.inj h]
      exact ⟨spelled, List.mem_cons_self, hhere⟩
    · obtain ⟨k', hmem, hsame⟩ := ih h
      exact ⟨k', List.mem_cons_of_mem _ hmem, hsame⟩

theorem lookup_congr {k k' : Value} (h : sameKey k k' = true) (es : List (Value × Value)) :
    lookup k es = lookup k' es := by
  induction es with
  | nil => rfl
  | cons e rest ih => rw [lookup, lookup, sameKey_congr h, ih]

/-- Every entry is found by its key. -/
theorem Distinct.lookup_of_mem {es : List (Value × Value)} (h : Distinct es) {k v : Value}
    (hmem : (k, v) ∈ es) : lookup k es = some v := by
  induction es with
  | nil => cases hmem
  | cons e rest ih =>
    obtain ⟨spelled, old⟩ := e
    have hkey := h.keys (spelled, old) List.mem_cons_self
    rw [lookup]
    rcases List.mem_cons.mp hmem with hhere | hthere
    · obtain ⟨rfl, rfl⟩ := Prod.mk.inj hhere
      rw [if_pos (sameKey_iff.mpr ⟨hkey, rfl⟩)]
    · rw [if_neg fun hsame => h.head_ne hthere (sameKey_iff.mp hsame).2]
      exact ih h.tail hthere

/-- The keys after an entry was put. -/
theorem map_key?_put (k v : Value) (es : List (Value × Value)) :
    ((put k v es).map fun e => e.1.key?) =
      if es.any (fun e => sameKey e.1 k) then es.map fun e => e.1.key?
      else (es.map fun e => e.1.key?) ++ [k.key?] := by
  induction es with
  | nil => rfl
  | cons e rest ih =>
    obtain ⟨spelled, old⟩ := e
    rw [put]
    by_cases hhere : sameKey spelled k = true
    · simp [hhere]
    · rw [if_neg hhere, List.map_cons, ih, List.any_cons, Bool.eq_false_iff.mpr hhere,
        Bool.false_or]
      split_ifs <;> rfl

theorem mem_put {k v : Value} {es : List (Value × Value)} {e : Value × Value}
    (h : e ∈ put k v es) : e = (k, v) ∨ ∃ f ∈ es, e.1 = f.1 ∧ (e.2 = f.2 ∨ e.2 = v) := by
  induction es with
  | nil => exact Or.inl (List.mem_singleton.mp h)
  | cons f rest ih =>
    obtain ⟨spelled, old⟩ := f
    rw [put] at h
    split_ifs at h with hhere
    · rcases List.mem_cons.mp h with rfl | h
      · exact Or.inr ⟨_, List.mem_cons_self, rfl, Or.inr rfl⟩
      · exact Or.inr ⟨e, List.mem_cons_of_mem _ h, rfl, Or.inl rfl⟩
    · rcases List.mem_cons.mp h with rfl | h
      · exact Or.inr ⟨_, List.mem_cons_self, rfl, Or.inl rfl⟩
      · rcases ih h with hnew | ⟨f, hf, hsame⟩
        · exact Or.inl hnew
        · exact Or.inr ⟨f, List.mem_cons_of_mem _ hf, hsame⟩

/-- An entry with a key that is there takes its place. -/
theorem Distinct.put {es : List (Value × Value)} (h : Distinct es) {k : Value}
    (hk : k.key?.isSome = true) (v : Value) : Distinct (put k v es) := by
  refine ⟨?_, ?_⟩
  · intro e he
    rcases mem_put he with rfl | ⟨f, hf, hsame, -⟩
    · exact hk
    · rw [hsame]
      exact h.keys f hf
  · rw [map_key?_put]
    split_ifs with hany
    · exact h.nodup
    · refine List.nodup_append.mpr ⟨h.nodup, by simp, ?_⟩
      rintro key hkey _ hlast rfl
      obtain ⟨e, he, hsame⟩ := List.mem_map.mp hkey
      refine hany (List.any_eq_true.mpr ⟨e, he, sameKey_iff.mpr ⟨h.keys e he, ?_⟩⟩)
      rw [hsame, List.mem_singleton.mp hlast]

/-- Entries put one after the other are distinct. -/
theorem distinct_foldl_put {es more : List (Value × Value)} (h : Distinct es)
    (hmore : ∀ e ∈ more, e.1.key?.isSome = true) :
    Distinct (more.foldl (fun es e => Value.put e.1 e.2 es) es) := by
  induction more generalizing es with
  | nil => exact h
  | cons e rest ih =>
    refine ih (h.put (hmore e List.mem_cons_self) e.2) ?_
    exact fun f hf => hmore f (List.mem_cons_of_mem _ hf)

/-- They have no values but those that were put. -/
theorem values_foldl_put {P : Value → Prop} {es more : List (Value × Value)}
    (h : ∀ e ∈ es, P e.2) (hmore : ∀ e ∈ more, P e.2) :
    ∀ e ∈ more.foldl (fun es e => Value.put e.1 e.2 es) es, P e.2 := by
  induction more generalizing es with
  | nil => exact h
  | cons e rest ih =>
    have hhead := hmore e List.mem_cons_self
    refine ih ?_ fun f hf => hmore f (List.mem_cons_of_mem _ hf)
    intro f hf
    rcases mem_put hf with rfl | ⟨g, hg, -, hsame | hsame⟩
    · exact hhead
    · rw [hsame]
      exact h g hg
    · rw [hsame]
      exact hhead

/-! ### Sound values -/

/-- Can be part of a layer: a scalar or a tie. -/
def IsPart (v : Value) : Prop := v.key?.isSome = true ∨ ∃ n, v = .tie n

/-- The entries of a layer have distinct keys and parts as values. -/
def IsLayer (v : Value) : Prop := ∀ es, v = .map es → Distinct es ∧ ∀ e ∈ es, IsPart e.2

/-- Has distinct keys in all mappings that are reached through mappings. -/
inductive Sound : Value → Prop
  | scalar {v : Value} (h : v.key?.isSome = true) : Sound v
  | list {items : List Value} : Sound (.list items)
  | set {items : List Value} : Sound (.set items)
  | pair {a b : Value} : Sound (.pair a b)
  | map {es : List (Value × Value)} (keys : Distinct es) (values : ∀ e ∈ es, Sound e.2) :
      Sound (.map es)
  | knot {layers : List Value} {n : Nat} (h : ∀ l ∈ layers, IsLayer l) : Sound (.knot layers n)

/-- Entries that are those of a sound mapping. -/
structure SoundEntries (es : List (Value × Value)) : Prop where
  keys : Distinct es
  values : ∀ e ∈ es, Sound e.2

theorem SoundEntries.map {es : List (Value × Value)} (h : SoundEntries es) : Sound (.map es) :=
  .map h.keys h.values

theorem SoundEntries.of_lookup {es : List (Value × Value)} (h : SoundEntries es) {k v : Value}
    (hv : lookup k es = some v) : Sound v := by
  obtain ⟨k', hmem, -⟩ := mem_of_lookup hv
  exact h.values _ hmem

theorem loosen_of_scalar {v : Value} (h : v.key?.isSome = true) (layers : List Value) :
    loosen layers v = v := by
  cases v <;> first | rfl | cases h

theorem view_of_scalar {v : Value} (h : v.key?.isSome = true) : v.view = v := by
  cases v <;> first | rfl | cases h

/-- The entries of a layer in the open. -/
theorem view_knot_eq_map_iff {layers : List Value} {n : Nat} {es : List (Value × Value)} :
    (Value.knot layers n).view = .map es ↔ ∃ entries, layers.getD n .null = .map entries ∧
      es = entries.map fun e => (e.1, loosen layers e.2) := by
  rw [view]
  cases layers.getD n .null <;> simp [loosenParts, eq_comm]

theorem distinct_map_values {es : List (Value × Value)} (h : Distinct es) (f : Value → Value) :
    Distinct (es.map fun e => (e.1, f e.2)) := by
  refine ⟨?_, ?_⟩
  · intro e he
    obtain ⟨f, hf, rfl⟩ := List.mem_map.mp he
    exact h.keys f hf
  · rw [List.map_map]
    exact h.nodup

/-- A layer that is a mapping is one of the layers. -/
theorem isLayer_getD {layers : List Value} (h : ∀ l ∈ layers, IsLayer l) {n : Nat}
    {entries : List (Value × Value)} (hlayer : layers.getD n .null = .map entries) :
    Distinct entries ∧ ∀ e ∈ entries, IsPart e.2 := by
  rw [List.getD_eq_getElem?_getD] at hlayer
  cases hn : layers[n]? with
  | none =>
    rw [hn] at hlayer
    cases hlayer
  | some l =>
    rw [hn] at hlayer
    exact h l (List.mem_of_getElem? hn) entries hlayer

/-- A sound mapping is in the open, or it is a layer of a knot. -/
theorem Sound.map_or_knot {v : Value} {es : List (Value × Value)} (h : Sound v)
    (hview : v.view = .map es) :
    (v = .map es ∧ SoundEntries es) ∨
      ∃ layers n entries, v = .knot layers n ∧ (∀ l ∈ layers, IsLayer l) ∧
        layers.getD n .null = .map entries ∧ es = entries.map fun e => (e.1, loosen layers e.2) := by
  cases h with
  | scalar h =>
    rw [view_of_scalar h] at hview
    rw [hview] at h
    cases h
  | list => cases hview
  | set => cases hview
  | pair => cases hview
  | map keys values =>
    obtain rfl := Value.map.inj hview
    exact Or.inl ⟨rfl, keys, values⟩
  | @knot layers n h =>
    obtain ⟨entries, hlayer, hes⟩ := view_knot_eq_map_iff.mp hview
    exact Or.inr ⟨layers, n, entries, rfl, h, hlayer, hes⟩

/-- **A mapping in a sound value is sound.** -/
theorem Sound.of_view {v : Value} {es : List (Value × Value)} (h : Sound v)
    (hview : v.view = .map es) : SoundEntries es := by
  obtain ⟨rfl, hes⟩ | ⟨layers, n, entries, rfl, hlayers, hlayer, rfl⟩ := h.map_or_knot hview
  · exact hes
  · obtain ⟨hkeys, hparts⟩ := isLayer_getD hlayers hlayer
    refine ⟨distinct_map_values hkeys _, ?_⟩
    intro e he
    obtain ⟨f, hf, rfl⟩ := List.mem_map.mp he
    rcases hparts f hf with hscalar | ⟨m, htie⟩
    · simp only [loosen_of_scalar hscalar]
      exact .scalar hscalar
    · simp only [htie, loosen]
      exact .knot hlayers

end Value

end LintHost
