/-
The name of a file makes no difference to what its text holds.

A text is read under the name of its file, and the name goes into the values: a not-a-number without
a word of its own is told from others by the file and the node that it was written at.  Read under
another name, a text gives a value that is `Alike`: the same, but for the names in its
not-a-numbers.  Alike values have the same keys in the same places, `Alike.sameKey`, and so are put
together in the same way; `both_valueOf` follows that through the two ways of putting values
together, side by side for the two names.  `Alike.view` says that alike values show alike ones.
-/
import LintHost.Proofs.Yaml.Sound

namespace LintHost.Yaml

open LintHost.Value LintHost.Outcome

/-- The same value, written in two files: the names of the files show in the not-a-numbers only. -/
inductive Alike (f g : String) : Value → Value → Prop
  | fixed {v : Value} (h : IsFixed v) : Alike f g v v
  | undefined (i : Nat) : Alike f g (.undefined ⟨f, i⟩) (.undefined ⟨g, i⟩)
  | tie (n : Nat) : Alike f g (.tie n) (.tie n)
  | list {xs ys : List Value} (h : List.Forall₂ (Alike f g) xs ys) : Alike f g (.list xs) (.list ys)
  | pair {a b a' b' : Value} (hfirst : Alike f g a a') (hsecond : Alike f g b b') :
      Alike f g (.pair a b) (.pair a' b')
  | set {xs ys : List Value} (h : List.Forall₂ (Alike f g) xs ys) : Alike f g (.set xs) (.set ys)
  | map {es es' : List (Value × Value)}
      (hkeys : List.Forall₂ (Alike f g) (es.map (·.1)) (es'.map (·.1)))
      (hvalues : List.Forall₂ (Alike f g) (es.map (·.2)) (es'.map (·.2))) :
      Alike f g (.map es) (.map es')
  | knot {ls ls' : List Value} (h : List.Forall₂ (Alike f g) ls ls') (n : Nat) :
      Alike f g (.knot ls n) (.knot ls' n)

/-- Entries with keys and values that are alike. -/
def AlikeEntries (f g : String) : List (Value × Value) → List (Value × Value) → Prop :=
  List.Forall₂ fun e e' => Alike f g e.1 e'.1 ∧ Alike f g e.2 e'.2

variable {f g : String}

theorem alike_map_iff {es es' : List (Value × Value)} :
    Alike f g (.map es) (.map es') ↔ AlikeEntries f g es es' := by
  constructor
  · intro h
    cases h with
    | fixed h => cases h.scalar
    | map hkeys hvalues =>
      induction es generalizing es' with
      | nil =>
        rw [List.map_nil, List.forall₂_nil_left_iff, List.map_eq_nil_iff] at hkeys
        rw [hkeys]
        exact .nil
      | cons e rest ih =>
        cases es' with
        | nil => cases hkeys
        | cons e' rest' =>
          rw [List.map_cons, List.map_cons, List.forall₂_cons] at hkeys hvalues
          exact .cons ⟨hkeys.1, hvalues.1⟩ (ih hkeys.2 hvalues.2)
  · intro h
    refine .map ?_ ?_
    · rw [List.forall₂_map_left_iff, List.forall₂_map_right_iff]
      exact List.Forall₂.imp (fun _ _ h => h.1) h
    · rw [List.forall₂_map_left_iff, List.forall₂_map_right_iff]
      exact List.Forall₂.imp (fun _ _ h => h.2) h

/-! ### Keys -/

/-- Alike values are spellings of one key, or of two that differ in the name of the file. -/
theorem Alike.key_cases {a a' : Value} (h : Alike f g a a') :
    (a.key? = a'.key? ∧ ∀ o, a.key? ≠ some (.undefined o)) ∨
      ∃ i, a.key? = some (.undefined ⟨f, i⟩) ∧ a'.key? = some (.undefined ⟨g, i⟩) := by
  cases h with
  | fixed h =>
    refine .inl ⟨rfl, fun o hkey => ?_⟩
    cases a with
    | undefined p => exact h.defined p rfl
    | _ => cases hkey
  | undefined i => exact .inr ⟨i, rfl, rfl⟩
  | _ => exact .inl ⟨rfl, fun o h => by cases h⟩

/-- **Alike values are one key with alike values.** -/
theorem Alike.sameKey {a a' b b' : Value} (ha : Alike f g a a') (hb : Alike f g b b') :
    Value.sameKey a b = Value.sameKey a' b' := by
  rw [Bool.eq_iff_iff, sameKey_iff, sameKey_iff]
  rcases ha.key_cases with ⟨ha, hadef⟩ | ⟨i, ha, ha'⟩
  · rcases hb.key_cases with ⟨hb, -⟩ | ⟨j, hb, hb'⟩
    · rw [ha, hb]
    · rw [ha] at hadef
      rw [ha, hb, hb']
      exact ⟨fun h => absurd h.2 (hadef _), fun h => absurd h.2 (hadef _)⟩
  · rcases hb.key_cases with ⟨hb, hbdef⟩ | ⟨j, hb, hb'⟩
    · rw [hb] at hbdef
      rw [ha, ha', hb]
      exact ⟨fun h => absurd h.2.symm (hbdef _), fun h => absurd h.2.symm (hbdef _)⟩
    · rw [ha, ha', hb, hb']
      simp

theorem AlikeEntries.lookup {es es' : List (Value × Value)} (h : AlikeEntries f g es es')
    {k k' : Value} (hk : Alike f g k k') :
    Option.Rel (Alike f g) (Value.lookup k es) (Value.lookup k' es') := by
  induction h with
  | nil => exact .none
  | cons he _ ih =>
    rw [Value.lookup, Value.lookup, he.1.sameKey hk]
    split_ifs
    · exact .some he.2
    · exact ih

theorem AlikeEntries.put {es es' : List (Value × Value)} (h : AlikeEntries f g es es')
    {k k' v v' : Value} (hk : Alike f g k k') (hv : Alike f g v v') :
    AlikeEntries f g (Value.put k v es) (Value.put k' v' es') := by
  induction h with
  | nil => exact .cons ⟨hk, hv⟩ .nil
  | cons he hrest ih =>
    rw [Value.put, Value.put, he.1.sameKey hk]
    split_ifs
    · exact .cons ⟨he.1, hv⟩ hrest
    · exact .cons he ih

theorem AlikeEntries.putAll {es es' : List (Value × Value)} (h : AlikeEntries f g es es') :
    AlikeEntries f g (Yaml.putAll es) (Yaml.putAll es') := by
  have hfold : ∀ {base base'}, AlikeEntries f g base base' →
      AlikeEntries f g (es.foldl (fun es e => Value.put e.1 e.2 es) base)
        (es'.foldl (fun es e => Value.put e.1 e.2 es) base') := by
    induction h with
    | nil => exact fun hbase => hbase
    | cons he _ ih => exact fun hbase => ih (hbase.put he.1 he.2)
  exact hfold .nil

theorem alike_null : Alike f g .null .null := .fixed ⟨rfl, by simp⟩

theorem alike_getD {o o' : Option Value} (h : Option.Rel (Alike f g) o o') :
    Alike f g (o.getD .null) (o'.getD .null) := by
  cases h with
  | some h => exact h
  | none => exact alike_null

/-- Collections that are put together from the same things are alike. -/
theorem alike_assemble (tag : Tag) {keys keys' values values' : List Value}
    (hkeys : List.Forall₂ (Alike f g) keys keys')
    (hvalues : List.Forall₂ (Alike f g) values values') :
    Alike f g (Building.assemble tag keys values) (Building.assemble tag keys' values') := by
  have hentries : AlikeEntries f g (keys.zip values) (keys'.zip values') := by
    induction hkeys generalizing values values' with
    | nil => exact .nil
    | cons hkey _ ih =>
      cases hvalues with
      | nil => exact .nil
      | cons hvalue hrest => exact .cons ⟨hkey, hvalue⟩ (ih hrest)
  unfold Building.assemble
  split
  · exact alike_map_iff.mpr hentries.putAll
  · refine .set ?_
    rw [List.forall₂_map_left_iff, List.forall₂_map_right_iff]
    exact List.Forall₂.imp (fun _ _ h => h.1) hentries.putAll
  · exact .list hvalues

/-! ### What a value shows -/

theorem Alike.loosen {v v' : Value} (h : Alike f g v v') {layers layers' : List Value}
    (hlayers : List.Forall₂ (Alike f g) layers layers') :
    Alike f g (Value.loosen layers v) (Value.loosen layers' v') := by
  cases h with
  | tie n => exact .knot hlayers n
  | fixed h =>
    cases v with
    | tie n => cases h.scalar
    | _ => exact .fixed h
  | undefined i => exact .undefined i
  | list h => exact .list h
  | pair ha hb => exact .pair ha hb
  | set h => exact .set h
  | map hkeys hvalues => exact .map hkeys hvalues
  | knot h n => exact .knot h n

theorem Alike.loosenParts {v v' : Value} (h : Alike f g v v') {layers layers' : List Value}
    (hlayers : List.Forall₂ (Alike f g) layers layers') :
    Alike f g (Value.loosenParts layers v) (Value.loosenParts layers' v') := by
  have hall : ∀ {xs ys : List Value}, List.Forall₂ (Alike f g) xs ys →
      List.Forall₂ (Alike f g) (xs.map (Value.loosen layers)) (ys.map (Value.loosen layers')) := by
    intro xs ys h
    rw [List.forall₂_map_left_iff, List.forall₂_map_right_iff]
    exact List.Forall₂.imp (fun _ _ h => h.loosen hlayers) h
  cases h with
  | list h => exact .list (hall h)
  | set h => exact .set (hall h)
  | pair ha hb => exact .pair (ha.loosen hlayers) (hb.loosen hlayers)
  | map hkeys hvalues =>
    refine .map ?_ ?_
    · rw [List.map_map, List.map_map]
      exact hkeys
    · rw [List.map_map, List.map_map]
      have hboth := hall hvalues
      rwa [List.map_map, List.map_map] at hboth
  | fixed h =>
    cases v with
    | list _ | pair _ _ | set _ | map _ => cases h.scalar
    | _ => exact .fixed h
  | undefined i => exact .undefined i
  | tie n => exact .tie n
  | knot h n => exact .knot h n

theorem alike_listGetD {xs ys : List Value} (h : List.Forall₂ (Alike f g) xs ys) (n : Nat) :
    Alike f g (xs.getD n .null) (ys.getD n .null) := by
  induction h generalizing n with
  | nil => exact alike_null
  | cons hhead _ ih =>
    cases n with
    | zero => exact hhead
    | succ n => exact ih n

/-- **Alike values show alike values.** -/
theorem Alike.view {v v' : Value} (h : Alike f g v v') : Alike f g v.view v'.view := by
  cases h with
  | knot h n => exact (alike_listGetD h n).loosenParts h
  | fixed h =>
    cases v with
    | knot _ _ => cases h.scalar
    | _ => exact .fixed h
  | undefined i => exact .undefined i
  | tie n => exact .tie n
  | list h => exact .list h
  | pair ha hb => exact .pair ha hb
  | set h => exact .set h
  | map hkeys hvalues => exact .map hkeys hvalues

/-! ### Operations under two names -/

/-- Operations that fail in one way, or give results that go together. -/
inductive Both {α β : Type} (R : α → β → Prop) : Except Error α → Except Error β → Prop
  | ok {a : α} {b : β} (h : R a b) : Both R (.ok a) (.ok b)
  | error (e : Error) : Both R (.error e) (.error e)

namespace Both

variable {α β γ α' β' : Type} {R : α → β → Prop} {S : α' → β' → Prop}

theorem same {R : α → α → Prop} {P : α → Prop} {x : Except Error α} (h : Gives P x)
    (hR : ∀ a, P a → R a a) : Both R x x := by
  cases x with
  | ok a => exact .ok (hR a (h a rfl))
  | error e => exact .error e

theorem bind {x : Except Error α} {y : Except Error β} {k : α → Except Error α'}
    {l : β → Except Error β'} (h : Both R x y) (hkl : ∀ a b, R a b → Both S (k a) (l b)) :
    Both S (x >>= k) (y >>= l) := by
  cases h with
  | ok h => exact hkl _ _ h
  | error e => exact .error e

/-- What has nothing to do with the name comes to the same. -/
theorem bind_same {x : Except Error γ} {k : γ → Except Error α'} {l : γ → Except Error β'}
    (hkl : ∀ c, Both S (k c) (l c)) : Both S (x >>= k) (x >>= l) := by
  cases x with
  | ok c => exact hkl c
  | error e => exact .error e

theorem foldlM {k : α → γ → Except Error α} {l : β → γ → Except Error β} {xs : List γ} {a : α}
    {b : β} (hkl : ∀ x a b, R a b → Both R (k a x) (l b x)) (h : R a b) :
    Both R (xs.foldlM k a) (xs.foldlM l b) := by
  induction xs generalizing a b with
  | nil => exact .ok h
  | cons x xs ih =>
    rw [List.foldlM_cons, List.foldlM_cons]
    exact (hkl x a b h).bind fun _ _ h => ih h

end Both

theorem both_float {word word' : Value} (h : Alike f g word word') (negative : Bool)
    (x : Binary64) :
    Both (Alike f g)
      (match x with
        | .nan => .ok word
        | x => .ok (.float (if negative then x.neg else x)))
      (match x with
        | .nan => .ok word'
        | x => .ok (.float (if negative then x.neg else x))) := by
  split
  · exact .ok h
  · exact .ok (.fixed ⟨rfl, by simp⟩)

/-- The number of a text is alike under both names. -/
theorem both_floatValue (i : Nat) (s : List Char) :
    Both (Alike f g) (floatValue ⟨f, i⟩ s) (floatValue ⟨g, i⟩ s) := by
  have hword : Alike f g (.float .nan) (.float .nan) := .fixed ⟨rfl, by simp⟩
  have hown : Alike f g (.undefined ⟨f, i⟩) (.undefined ⟨g, i⟩) := .undefined i
  unfold floatValue
  refine Both.bind_same fun ⟨negative, body⟩ => ?_
  dsimp only
  split
  · refine Both.bind_same (both_float ?_ negative)
    split_ifs
    · exact hword
    · exact hown
  · split
    · exact Both.bind_same (both_float hword negative)
    · split
      · exact Both.bind_same fun _ => Both.bind_same (both_float hown negative)
      · exact Both.bind_same (both_float hown negative)

/-! ### Slots -/

/-- As many slots, with values that are alike in the same ones. -/
structure AlikeSlots (f g : String) (xs ys : Array (Option Value)) : Prop where
  size : xs.size = ys.size
  slot : ∀ i, Option.Rel (Alike f g) (xs.getD i none) (ys.getD i none)

namespace AlikeSlots

theorem replicate (n : Nat) :
    AlikeSlots f g (Array.replicate n none) (Array.replicate n none) := by
  refine ⟨rfl, fun i => ?_⟩
  have hempty : (Array.replicate n (none : Option Value)).getD i none = none := by
    rw [Array.getD_eq_getD_getElem?, Array.getElem?_replicate]
    split_ifs <;> rfl
  rw [hempty]
  exact .none

theorem set {xs ys : Array (Option Value)} (h : AlikeSlots f g xs ys) (i : Nat) {v v' : Value}
    (hv : Alike f g v v') :
    AlikeSlots f g (xs.setIfInBounds i (some v)) (ys.setIfInBounds i (some v')) := by
  refine ⟨by simp [h.size], fun j => ?_⟩
  have hslot := h.slot j
  rw [Array.getD_eq_getD_getElem?, Array.getD_eq_getD_getElem?] at hslot ⊢
  rw [Array.getElem?_setIfInBounds, Array.getElem?_setIfInBounds, ← h.size]
  split_ifs
  · exact .some hv
  · exact .none
  · exact hslot

end AlikeSlots

namespace Building

/-! ### Meeting the nodes -/

/-- The same building under the two names. -/
inductive Twin (f g : String) : Building → Building → Prop
  | of (nodes : Nodes) (merges : Nat) (met : Array Bool) (waiting : List Nat)
      {xs ys : Array (Option Value)} (h : AlikeSlots f g xs ys) :
      Twin f g ⟨f, nodes, merges, met, xs, waiting⟩ ⟨g, nodes, merges, met, ys, waiting⟩

variable {b b' : Building}

theorem twin_start (f g : String) (ns : Nodes) : Twin f g (start f ns) (start g ns) :=
  .of _ _ _ _ (.replicate ns.size)

theorem both_scalarValue (h : Twin f g b b') (i : Nat) :
    Both (Alike f g) (b.scalarValue i) (b'.scalarValue i) := by
  have hfixed : ∀ {x : Except Error Value}, Gives IsFixed x → Both (Alike f g) x x :=
    fun hx => Both.same hx fun _ => .fixed
  obtain ⟨nodes, merges, met, waiting, -⟩ := h
  unfold scalarValue
  dsimp only
  split
  · exact hfixed (Gives.map fun _ => ⟨rfl, by simp⟩)
  · exact hfixed (Gives.map fun _ => ⟨rfl, by simp⟩)
  · exact hfixed (Gives.bind_any gives_boolValue)
  · exact hfixed (Gives.bind_any gives_intValue)
  · exact Both.bind_same (both_floatValue i)
  · refine hfixed (Gives.bind_any fun s => ?_)
    split
    · exact gives_momentValue s
    · exact Gives.error _
  · exact hfixed (Gives.bind_any gives_binaryValue)
  · exact Both.error _

theorem both_meet (h : Twin f g b b') (i : Nat) : Both (Twin f g) (b.meet i) (b'.meet i) := by
  obtain ⟨nodes, merges, met, waiting, h⟩ := h
  unfold meet
  dsimp only
  split_ifs
  · exact .ok (.of _ _ _ _ h)
  · exact .ok (.of _ _ _ _ h)
  · exact (both_scalarValue (.of _ _ _ _ h) i).bind fun v v' hv => .ok (.of _ _ _ _ (h.set i hv))

theorem both_meetKey (h : Twin f g b b') (k : Nat) :
    Both (Twin f g) (b.meetKey k) (b'.meetKey k) := by
  refine (both_meet h k).bind fun b b' h => ?_
  obtain ⟨nodes, merges, met, waiting, h⟩ := h
  dsimp only
  split_ifs
  · exact Both.error _
  · exact .ok (.of _ _ _ _ h)

theorem both_meetPair (h : Twin f g b b') (i : Nat) :
    Both (Twin f g) (b.meetPair i) (b'.meetPair i) := by
  obtain ⟨nodes, merges, met, waiting, h⟩ := h
  unfold meetPair
  dsimp only
  split
  · exact (both_meet (.of _ _ _ _ h) _).bind fun b b' h => both_meet h _
  · exact Both.error _

theorem both_lookInto (h : Twin f g b b') (i : Nat) :
    Both (Twin f g) (b.lookInto i) (b'.lookInto i) := by
  have hentry : ∀ (e : Nat × Nat) b b', Twin f g b b' →
      Both (Twin f g) (b.meetKey e.1 >>= (·.meet e.2)) (b'.meetKey e.1 >>= (·.meet e.2)) :=
    fun e b b' h => (both_meetKey h e.1).bind fun b b' h => both_meet h e.2
  obtain ⟨nodes, merges, met, waiting, h⟩ := h
  unfold lookInto
  dsimp only
  split
  · split
    · exact Both.foldlM (fun x b b' h => both_meet h x) (.of _ _ _ _ h)
    · exact Both.foldlM (fun x b b' h => both_meetPair h x) (.of _ _ _ _ h)
    · exact Both.foldlM (fun x b b' h => both_meetPair h x) (.of _ _ _ _ h)
    · exact Both.error _
  · split
    · exact Both.bind_same fun nodes => Both.foldlM hentry (.of _ _ _ _ h)
    · exact Both.bind_same fun nodes => Both.foldlM hentry (.of _ _ _ _ h)
    · exact Both.error _
  · exact Both.error _

theorem both_levels (h : Twin f g b b') (fuel : Nat) :
    Both (Twin f g) (b.levels fuel) (b'.levels fuel) := by
  induction fuel generalizing b b' with
  | zero => exact .ok h
  | succ fuel ih =>
    obtain ⟨nodes, merges, met, waiting, h⟩ := h
    rw [levels, levels]
    dsimp only
    split_ifs
    · exact .ok (.of _ _ _ _ h)
    · refine Both.bind (R := Twin f g) ?_ fun b b' h => ih h
      exact Both.foldlM (fun i b b' h => both_lookInto h i) (.of _ _ _ _ h)

/-! ### Putting values together -/

theorem alike_scalarAt (h : Twin f g b b') (i : Nat) :
    Alike f g (b.scalarAt i) (b'.scalarAt i) := by
  obtain ⟨nodes, merges, met, waiting, h⟩ := h
  exact alike_getD (h.slot i)

/-! #### As a tree -/

/-- Operations with results that go together, after which what is remembered is alike if it was
before. -/
def Together {α β : Type} (R : α → β → Prop) (f g : String) (m : Settled α) (n : Settled β) :
    Prop :=
  ∀ xs ys, AlikeSlots f g xs ys →
    R (m.run xs).1 (n.run ys).1 ∧ AlikeSlots f g (m.run xs).2 (n.run ys).2

namespace Together

variable {α β α' β' γ : Type} {R : α → β → Prop} {S : α' → β' → Prop}

theorem pure {x : α} {y : β} (h : R x y) : Together R f g (pure x) (pure y) :=
  fun _ _ hs => ⟨h, hs⟩

theorem bind {m : Settled α} {n : Settled β} {k : α → Settled α'} {l : β → Settled β'}
    (h : Together R f g m n) (hkl : ∀ a b, R a b → Together S f g (k a) (l b)) :
    Together S f g (m >>= k) (n >>= l) := by
  intro xs ys hs
  obtain ⟨hr, hs⟩ := h xs ys hs
  exact hkl _ _ hr _ _ hs

theorem mapM {k : γ → Settled α} {l : γ → Settled β} (zs : List γ)
    (h : ∀ z, Together R f g (k z) (l z)) :
    Together (List.Forall₂ R) f g (zs.mapM k) (zs.mapM l) := by
  induction zs with
  | nil =>
    rw [List.mapM_nil, List.mapM_nil]
    exact Together.pure .nil
  | cons z zs ih =>
    rw [List.mapM_cons, List.mapM_cons]
    exact (h z).bind fun _ _ hz => ih.bind fun _ _ hzs => Together.pure (.cons hz hzs)

theorem get : Together (AlikeSlots f g) f g (MonadState.get : Settled (Array (Option Value)))
    MonadState.get := fun _ _ hs => ⟨hs, hs⟩

theorem remember (i : Nat) {v v' : Value} (h : Alike f g v v') :
    Together (fun _ _ => True) f g
      (modify fun settled => settled.setIfInBounds i (some v) : Settled PUnit)
      (modify fun settled => settled.setIfInBounds i (some v')) :=
  fun _ _ hs => ⟨trivial, hs.set i h⟩

end Together

theorem together_pair {valueAt valueAt' : Nat → Settled Value}
    (h : ∀ i, Together (Alike f g) f g (valueAt i) (valueAt' i)) (entries : List (Nat × Nat)) :
    Together (Alike f g) f g
      (match entries with
        | [(k, v)] => do
          return .pair (← valueAt k) (← valueAt v)
        | _ => pure .null)
      (match entries with
        | [(k, v)] => do
          return .pair (← valueAt' k) (← valueAt' v)
        | _ => pure .null) := by
  split
  · exact (h _).bind fun _ _ hk => (h _).bind fun _ _ hv => Together.pure (.pair hk hv)
  · exact Together.pure alike_null

theorem together_valueAt (h : Twin f g b b') (fuel i : Nat) :
    Together (Alike f g) f g (b.valueAt fuel i) (b'.valueAt fuel i) := by
  have hscalar := alike_scalarAt h
  induction fuel generalizing i with
  | zero => exact Together.pure alike_null
  | succ fuel ih =>
    have hend {tag : Tag} {keys keys' values values' : List Value}
        (hkeys : List.Forall₂ (Alike f g) keys keys')
        (hvalues : List.Forall₂ (Alike f g) values values') :
        Together (Alike f g) f g
          (do
            let v := assemble tag keys values
            modify fun settled => settled.setIfInBounds i (some v)
            pure v)
          (do
            let v := assemble tag keys' values'
            modify fun settled => settled.setIfInBounds i (some v)
            pure v) := by
      have hv := alike_assemble tag hkeys hvalues
      exact (Together.remember i hv).bind fun _ _ _ => Together.pure hv
    obtain ⟨nodes, merges, met, waiting, h⟩ := h
    rw [valueAt, valueAt]
    dsimp only
    split
    · exact Together.pure (hscalar i)
    · refine Together.get.bind fun xs ys hslots => ?_
      have hslot := hslots.slot i
      generalize xs.getD i none = x at hslot
      generalize ys.getD i none = y at hslot
      cases hslot with
      | some hv => exact Together.pure hv
      | none =>
        dsimp only
        split
        · exact hend .nil .nil
        · split
          · exact (Together.mapM _ ih).bind fun _ _ hvalues => hend .nil hvalues
          · refine (Together.mapM _ fun item => together_pair ih _).bind fun _ _ hvalues => ?_
            exact hend .nil hvalues
        · refine (Together.mapM _ fun e : Nat × Nat => ih e.2).bind fun _ _ hvalues => hend ?_ hvalues
          exact forall₂_map fun e _ => hscalar e.1

/-! #### As a knot -/

theorem alike_partAt (h : Twin f g b b') (i : Nat) : Alike f g (b.partAt i) (b'.partAt i) := by
  have hscalar := alike_scalarAt h i
  obtain ⟨nodes, merges, met, waiting, h⟩ := h
  unfold partAt
  dsimp only
  split_ifs
  · exact .tie i
  · exact hscalar

theorem alike_pairsAt (h : Twin f g b b') (i : Nat) :
    List.Forall₂ (Alike f g) (b.pairsAt i) (b'.pairsAt i) := by
  have hpart := alike_partAt h
  have hpair : ∀ entries : List (Nat × Nat), Alike f g
      (match entries with
        | [(k, v)] => .pair (b.partAt k) (b.partAt v)
        | _ => .null)
      (match entries with
        | [(k, v)] => .pair (b'.partAt k) (b'.partAt v)
        | _ => .null) := by
    intro entries
    split
    · exact .pair (hpart _) (hpart _)
    · exact alike_null
  obtain ⟨nodes, merges, met, waiting, h⟩ := h
  unfold pairsAt
  dsimp only
  split
  · exact forall₂_map fun item _ => hpair _
  · exact forall₂_map fun item _ => hpair _
  · exact .nil

theorem alike_layerAt (h : Twin f g b b') (i next : Nat) :
    Alike f g (b.layerAt i next) (b'.layerAt i next) := by
  have hpart := alike_partAt h
  have hscalar := alike_scalarAt h
  obtain ⟨nodes, merges, met, waiting, h⟩ := h
  unfold layerAt
  dsimp only
  split
  · exact alike_assemble _ .nil (forall₂_map fun item _ => hpart item)
  · exact alike_assemble _ .nil (forall₂_map fun k _ => .tie _)
  · exact alike_assemble _ (forall₂_map fun e _ => hscalar e.1) (forall₂_map fun e _ => hpart e.2)
  · exact alike_null

/-- The layers of some nodes after others, and those of their pairs. -/
theorem alike_foldl (h : Twin f g b b') (size : Nat) (numbers : List Nat)
    {own own' pairs pairs' : Array Value} (hown : List.Forall₂ (Alike f g) own.toList own'.toList)
    (hpairs : List.Forall₂ (Alike f g) pairs.toList pairs'.toList) :
    List.Forall₂ (Alike f g)
      (match numbers.foldl (fun (own, pairs) i =>
          (own.push (b.layerAt i (size + pairs.size)), pairs ++ b.pairsAt i)) (own, pairs) with
        | (own, pairs) => (own ++ pairs).toList)
      (match numbers.foldl (fun (own, pairs) i =>
          (own.push (b'.layerAt i (size + pairs.size)), pairs ++ b'.pairsAt i)) (own', pairs') with
        | (own, pairs) => (own ++ pairs).toList) := by
  induction numbers generalizing own own' pairs pairs' with
  | nil =>
    show List.Forall₂ (Alike f g) (own ++ pairs).toList (own' ++ pairs').toList
    rw [Array.toList_append, Array.toList_append]
    exact List.rel_append hown hpairs
  | cons i rest ih =>
    have hsize : pairs'.size = pairs.size := by
      rw [← Array.length_toList, ← Array.length_toList, hpairs.length_eq]
    refine ih ?_ ?_
    · rw [hsize, Array.toList_push, Array.toList_push]
      exact List.rel_append hown (.cons (alike_layerAt h i _) .nil)
    · rw [Array.toList_appendList, Array.toList_appendList]
      exact List.rel_append hpairs (alike_pairsAt h i)

theorem alike_layers (h : Twin f g b b') :
    List.Forall₂ (Alike f g) b.layers b'.layers := by
  have hsize : b'.nodes.size = b.nodes.size := by
    obtain ⟨nodes, merges, met, waiting, h⟩ := h
    rfl
  unfold layers
  rw [hsize]
  exact alike_foldl h b.nodes.size (List.range b.nodes.size) .nil .nil

end Building

/-! ### Documents and texts -/

theorem Document.both_value (f g : String) (d : Document) :
    Both (Alike f g) (d.value f) (d.value g) := by
  unfold Document.value
  refine (Building.both_meet (Building.twin_start f g d.nodes) d.root).bind fun b b' h => ?_
  refine (Building.both_levels h _).bind fun b b' h => ?_
  split_ifs
  · exact .ok ((Building.alike_partAt h d.root).loosen (Building.alike_layers h))
  · exact .ok (Building.together_valueAt h _ d.root _ _ (.replicate _)).1

/-- **A text has alike values under two names.** -/
theorem both_valueOf (room : Nat) (f g : String) (text : Text.Portion) :
    Both (Alike f g) (valueOf room f text) (valueOf room g text) := by
  rw [valueOf, valueOf]
  generalize Document.ofTokens room (Token.ofSource (.ofPortion text)) = document
  refine Both.bind_same fun d => ?_
  cases d with
  | some d => exact d.both_value f g
  | none => exact .ok alike_null

end LintHost.Yaml
