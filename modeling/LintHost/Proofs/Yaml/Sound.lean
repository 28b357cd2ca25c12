/-
The values of configuration texts are sound.

While the nodes of a document are met, no value is kept but those of scalars; that is `Plain`, and
each step of the meeting keeps it.  From there on the two ways of putting values together go apart.
In a document without knots each collection is put together once and remembered, and what is
remembered is sound as long as everything remembered before is; `Keeps` says that of an operation
on what is remembered, and goes through operations that are put together.  In a document with knots
every node gives a layer, and the layers have nothing but scalars and ties in them.

In both ways a mapping is put together by `assemble`, entry by entry, and that is where its keys
come to be distinct.
-/
import LintHost.Yaml.Document
import LintHost.Proofs.Outcome
import LintHost.Proofs.Value.Key

namespace LintHost.Yaml

open LintHost.Value LintHost.Outcome

/-! ### Scalars -/

/-- Whatever an operation gives is of a sort. -/
def Gives {α : Type} (P : α → Prop) (x : Except Error α) : Prop := ∀ a, x = .ok a → P a

namespace Gives

variable {α β : Type} {P : α → Prop} {P' : β → Prop}

theorem ok {a : α} (h : P a) : Gives P (.ok a) := by
  rintro _ ⟨⟩
  exact h

theorem error (e : Error) : Gives P (.error e) := by
  rintro _ ⟨⟩

theorem weaken {Q : α → Prop} {x : Except Error α} (h : Gives P x) (hQ : ∀ a, P a → Q a) :
    Gives Q x := fun a ha => hQ a (h a ha)

theorem bind {x : Except Error α} {f : α → Except Error β} (h : Gives P x)
    (hf : ∀ a, P a → Gives P' (f a)) : Gives P' (x >>= f) := by
  intro b hb
  obtain ⟨a, ha, hb⟩ := bind_eq_ok_iff.mp hb
  exact hf a (h a ha) b hb

/-- What an operation gives at the end does not depend on what it starts with. -/
theorem bind_any {x : Except Error α} {f : α → Except Error β} (hf : ∀ a, Gives P' (f a)) :
    Gives P' (x >>= f) :=
  bind (P := fun _ => True) (fun _ _ => trivial) fun a _ => hf a

theorem map {x : Except Error α} {f : α → β} (hf : ∀ a, P' (f a)) : Gives P' (f <$> x) := by
  intro b hb
  obtain ⟨a, -, rfl⟩ := map_eq_ok_iff.mp hb
  exact hf a

theorem foldlM {f : β → α → Except Error β} {xs : List α} {y : β}
    (h : ∀ b x, P' b → Gives P' (f b x)) (hy : P' y) : Gives P' (xs.foldlM f y) := by
  induction xs generalizing y with
  | nil => exact ok hy
  | cons x xs ih =>
    rw [List.foldlM_cons]
    exact bind (h y x hy) fun b hb => ih hb

end Gives

/-- Is a scalar, and so can be a key. -/
abbrev IsScalar (v : Value) : Prop := v.key?.isSome = true

/-- Is a scalar, and the same one wherever it is written. -/
structure IsFixed (v : Value) : Prop where
  scalar : IsScalar v
  defined : ∀ o, v ≠ .undefined o

theorem gives_intValue (s : List Char) : Gives IsFixed (intValue s) := by
  unfold intValue
  refine Gives.bind_any fun ⟨negative, body⟩ => ?_
  have hend : ∀ n : Int, Gives IsFixed (.ok (.int (if negative then -n else n))) :=
    fun _ => Gives.ok ⟨rfl, by simp⟩
  dsimp only
  -- a case for each way of writing a number, and two for the digits of a plain one
  split
  · exact Gives.bind_any hend
  · exact Gives.bind_any hend
  · exact Gives.bind_any hend
  · exact Gives.bind_any hend
  · exact Gives.bind_any hend
  · split
    · exact Gives.bind_any fun _ => Gives.bind_any hend
    · exact Gives.bind_any hend

theorem gives_float {word : Value} (hword : IsScalar word) (negative : Bool) (x : Binary64) :
    Gives IsScalar (match x with
      | .nan => .ok word
      | x => .ok (.float (if negative then x.neg else x))) := by
  split
  · exact Gives.ok hword
  · exact Gives.ok rfl

theorem gives_floatValue (origin : Origin) (s : List Char) :
    Gives IsScalar (floatValue origin s) := by
  unfold floatValue
  refine Gives.bind_any fun ⟨negative, body⟩ => ?_
  dsimp only
  split
  · exact Gives.bind_any (gives_float (by split <;> rfl) negative)
  · split
    · exact Gives.bind_any (gives_float rfl negative)
    · split
      · exact Gives.bind_any fun _ => Gives.bind_any (gives_float rfl negative)
      · exact Gives.bind_any (gives_float rfl negative)

theorem gives_boolValue (s : List Char) : Gives IsFixed (boolValue s) := by
  unfold boolValue
  dsimp only
  split_ifs
  · exact Gives.ok ⟨rfl, by simp⟩
  · exact Gives.ok ⟨rfl, by simp⟩
  · exact Gives.error _

theorem gives_momentValue (s : List Char) : Gives IsFixed (momentValue s) := by
  unfold momentValue
  refine Gives.bind_any fun m => Gives.bind_any fun date => ?_
  split
  · exact Gives.ok ⟨rfl, by simp⟩
  · exact Gives.bind_any fun _ => Gives.ok ⟨rfl, by simp⟩

theorem gives_binaryValue (s : List Char) : Gives IsFixed (binaryValue s) := by
  unfold binaryValue
  split
  · exact Gives.map fun _ => ⟨rfl, by simp⟩
  · exact Gives.error _

namespace Building

theorem gives_scalarValue (b : Building) (i : Nat) : Gives IsScalar (b.scalarValue i) := by
  unfold scalarValue
  dsimp only
  split
  · exact Gives.map fun _ => rfl
  · exact Gives.map fun _ => rfl
  · exact Gives.bind_any fun s => (gives_boolValue s).weaken fun _ h => h.scalar
  · exact Gives.bind_any fun s => (gives_intValue s).weaken fun _ h => h.scalar
  · exact Gives.bind_any (gives_floatValue _)
  · refine Gives.bind_any fun s => ?_
    split
    · exact (gives_momentValue s).weaken fun _ h => h.scalar
    · exact Gives.error _
  · exact Gives.bind_any fun s => (gives_binaryValue s).weaken fun _ h => h.scalar
  · exact Gives.error _

/-! ### Meeting the nodes -/

/-- Only the values of scalars are kept. -/
def Plain (b : Building) : Prop := ∀ v, some v ∈ b.scalars → IsScalar v

theorem plain_start (file : String) (ns : Nodes) : (start file ns).Plain := by
  intro v hv
  cases Array.eq_of_mem_replicate hv

theorem gives_meet {b : Building} (h : b.Plain) (i : Nat) : Gives Plain (b.meet i) := by
  unfold meet
  dsimp only
  split
  · exact Gives.ok h
  · split
    · exact Gives.ok h
    · refine Gives.bind (gives_scalarValue _ i) fun v hv => Gives.ok ?_
      intro w hw
      rcases Array.mem_or_eq_of_mem_setIfInBounds hw with hw | hw
      · exact h w hw
      · rw [Option.some.inj hw]
        exact hv

theorem gives_meetKey {b : Building} (h : b.Plain) (k : Nat) : Gives Plain (b.meetKey k) := by
  refine Gives.bind (gives_meet h k) fun b hb => ?_
  split
  · exact Gives.error _
  · exact Gives.ok hb

theorem gives_meetPair {b : Building} (h : b.Plain) (i : Nat) : Gives Plain (b.meetPair i) := by
  unfold meetPair
  split
  · exact Gives.bind (gives_meet h _) fun b hb => gives_meet hb _
  · exact Gives.error _

theorem gives_lookInto {b : Building} (h : b.Plain) (i : Nat) : Gives Plain (b.lookInto i) := by
  unfold lookInto
  dsimp only
  split
  · split
    · exact Gives.foldlM (fun b x hb => gives_meet hb x) h
    · exact Gives.foldlM (fun b x hb => gives_meetPair hb x) h
    · exact Gives.foldlM (fun b x hb => gives_meetPair hb x) h
    · exact Gives.error _
  · split
    · refine Gives.bind_any fun nodes => Gives.foldlM (fun b e hb => ?_) h
      exact Gives.bind (gives_meetKey hb _) fun b hb => gives_meet hb _
    · refine Gives.bind_any fun nodes => Gives.foldlM (fun b e hb => ?_) h
      exact Gives.bind (gives_meetKey hb _) fun b hb => gives_meet hb _
    · exact Gives.error _
  · exact Gives.error _

theorem gives_levels {b : Building} (h : b.Plain) (fuel : Nat) : Gives Plain (b.levels fuel) := by
  induction fuel generalizing b with
  | zero => exact Gives.ok h
  | succ fuel ih =>
    rw [levels]
    split
    · exact Gives.ok h
    · refine Gives.bind (P := Plain) ?_ fun b hb => ih hb
      exact Gives.foldlM (fun b i hb => gives_lookInto hb i) h

/-! ### Putting values together -/

theorem mem_of_getD {values : Array (Option Value)} {i : Nat} {v : Value}
    (h : values.getD i none = some v) : some v ∈ values := by
  rw [Array.getD_eq_getD_getElem?] at h
  cases hi : values[i]? with
  | none =>
    rw [hi] at h
    cases h
  | some w =>
    rw [hi] at h
    exact h ▸ Array.mem_of_getElem? hi

theorem isScalar_scalarAt {b : Building} (h : b.Plain) (i : Nat) : IsScalar (b.scalarAt i) := by
  unfold scalarAt
  cases hv : b.scalars.getD i none with
  | none => rfl
  | some v => exact h v (mem_of_getD hv)

/-- Mappings are put together with distinct keys. -/
theorem assemble_eq_map {tag : Tag} {keys values : List Value} {es : List (Value × Value)}
    {P : Value → Prop} (hkeys : ∀ k ∈ keys, IsScalar k) (hvalues : ∀ v ∈ values, P v)
    (h : assemble tag keys values = .map es) : Distinct es ∧ ∀ e ∈ es, P e.2 := by
  unfold assemble at h
  split at h
  · obtain rfl := Value.map.inj h
    refine ⟨distinct_foldl_put Distinct.nil ?_, values_foldl_put (by simp) ?_⟩
    · exact fun e he => hkeys _ (List.of_mem_zip he).1
    · exact fun e he => hvalues _ (List.of_mem_zip he).2
  · cases h
  · cases h

theorem sound_assemble {tag : Tag} {keys values : List Value} (hkeys : ∀ k ∈ keys, IsScalar k)
    (hvalues : ∀ v ∈ values, Sound v) : Sound (assemble tag keys values) := by
  cases h : assemble tag keys values with
  | map es =>
    obtain ⟨hdistinct, hsound⟩ := assemble_eq_map hkeys hvalues h
    exact .map hdistinct hsound
  | list items => exact .list
  | set items => exact .set
  | _ => unfold assemble at h; split at h <;> cases h

theorem isLayer_assemble {tag : Tag} {keys values : List Value} (hkeys : ∀ k ∈ keys, IsScalar k)
    (hvalues : ∀ v ∈ values, IsPart v) : IsLayer (assemble tag keys values) :=
  fun _ h => assemble_eq_map hkeys hvalues h

/-! #### As a tree -/

/-- Everything that is remembered is sound. -/
def Remembers (settled : Array (Option Value)) : Prop := ∀ v, some v ∈ settled → Sound v

/-- An operation whose result is of a sort, and after which everything that is remembered is sound
if it was before. -/
def Keeps {α : Type} (P : α → Prop) (m : Settled α) : Prop :=
  ∀ settled, Remembers settled → P (m.run settled).1 ∧ Remembers (m.run settled).2

namespace Keeps

variable {α β : Type} {P : α → Prop} {P' : β → Prop}

theorem result {m : Settled α} (h : Keeps P m) {settled : Array (Option Value)}
    (hs : Remembers settled) : P (m.run settled).1 := (h settled hs).1

theorem pure {x : α} (h : P x) : Keeps P (pure x) := fun _ hs => ⟨h, hs⟩

theorem bind {m : Settled α} {f : α → Settled β} (h : Keeps P m)
    (hf : ∀ a, P a → Keeps P' (f a)) : Keeps P' (m >>= f) := by
  intro settled hs
  obtain ⟨hp, hs⟩ := h settled hs
  exact hf _ hp _ hs

theorem mapM {f : α → Settled β} {xs : List α} (h : ∀ x ∈ xs, Keeps P' (f x)) :
    Keeps (fun ys => ∀ y ∈ ys, P' y) (xs.mapM f) := by
  induction xs with
  | nil =>
    rw [List.mapM_nil]
    exact Keeps.pure (by simp)
  | cons x xs ih =>
    rw [List.mapM_cons]
    refine (h x (by simp)).bind fun y hy => ?_
    refine (ih fun z hz => h z (by simp [hz])).bind fun ys hys => Keeps.pure ?_
    exact List.forall_mem_cons.mpr ⟨hy, hys⟩

theorem get : Keeps Remembers (MonadState.get : Settled (Array (Option Value))) :=
  fun _ hs => ⟨hs, hs⟩

theorem remember {v : Value} (h : Sound v) (i : Nat) :
    Keeps (fun _ => True)
      (modify fun settled => settled.setIfInBounds i (some v) : Settled PUnit) := by
  intro settled hs
  refine ⟨trivial, fun w hw => ?_⟩
  rcases Array.mem_or_eq_of_mem_setIfInBounds hw with hw | hw
  · exact hs w hw
  · rw [Option.some.inj hw]
    exact h

end Keeps

theorem keeps_pair {valueAt : Nat → Settled Value} (h : ∀ i, Keeps Sound (valueAt i))
    (entries : List (Nat × Nat)) : Keeps Sound (match entries with
      | [(k, v)] => do
        return .pair (← valueAt k) (← valueAt v)
      | _ => pure .null) := by
  split
  · exact (h _).bind fun _ _ => (h _).bind fun _ _ => Keeps.pure .pair
  · exact Keeps.pure (.scalar rfl)

theorem keeps_valueAt {b : Building} (h : b.Plain) (fuel i : Nat) :
    Keeps Sound (b.valueAt fuel i) := by
  induction fuel generalizing i with
  | zero => exact Keeps.pure (.scalar rfl)
  | succ fuel ih =>
    rw [valueAt]
    have hend {keys values : List Value} (hkeys : ∀ k ∈ keys, IsScalar k)
        (hvalues : ∀ v ∈ values, Sound v) : Keeps Sound (do
          let v := assemble (b.nodes.at i).tag keys values
          modify fun settled => settled.setIfInBounds i (some v)
          pure v) := by
      have hsound : Sound (assemble (b.nodes.at i).tag keys values) := sound_assemble hkeys hvalues
      exact (Keeps.remember hsound i).bind fun _ _ => Keeps.pure hsound
    split
    · exact Keeps.pure (.scalar (isScalar_scalarAt h i))
    · refine Keeps.get.bind fun settled hsettled => ?_
      split
      · rename_i v hv
        exact Keeps.pure (hsettled v (mem_of_getD hv))
      · dsimp only
        split
        · exact hend (by simp) (by simp)
        · split
          · exact (Keeps.mapM fun item _ => ih item).bind fun _ hvalues => hend (by simp) hvalues
          · exact (Keeps.mapM fun item _ => keeps_pair ih _).bind fun _ hvalues =>
              hend (by simp) hvalues
        · refine (Keeps.mapM fun e _ => ih e.2).bind fun _ hvalues => hend ?_ hvalues
          intro k hk
          obtain ⟨e, -, rfl⟩ := List.mem_map.mp hk
          exact isScalar_scalarAt h e.1

/-! #### As a knot -/

theorem isPart_partAt {b : Building} (h : b.Plain) (i : Nat) : IsPart (b.partAt i) := by
  unfold partAt
  split
  · exact Or.inr ⟨i, rfl⟩
  · exact Or.inl (isScalar_scalarAt h i)

theorem isLayer_pairsAt (b : Building) (i : Nat) : ∀ l ∈ b.pairsAt i, IsLayer l := by
  unfold pairsAt
  dsimp only
  -- a list of pairs has one of two tags; no layer of a pair is a mapping
  split
  · intro l hl es hes
    obtain ⟨item, -, rfl⟩ := List.mem_map.mp hl
    split at hes <;> cases hes
  · intro l hl es hes
    obtain ⟨item, -, rfl⟩ := List.mem_map.mp hl
    split at hes <;> cases hes
  · simp

theorem isLayer_layerAt {b : Building} (h : b.Plain) (i next : Nat) :
    IsLayer (b.layerAt i next) := by
  unfold layerAt
  dsimp only
  split
  · refine isLayer_assemble (by simp) fun v hv => ?_
    obtain ⟨item, -, rfl⟩ := List.mem_map.mp hv
    exact isPart_partAt h item
  · refine isLayer_assemble (by simp) fun v hv => ?_
    obtain ⟨k, -, rfl⟩ := List.mem_map.mp hv
    exact Or.inr ⟨_, rfl⟩
  · refine isLayer_assemble (fun k hk => ?_) fun v hv => ?_
    · obtain ⟨e, -, rfl⟩ := List.mem_map.mp hk
      exact isScalar_scalarAt h e.1
    · obtain ⟨e, -, rfl⟩ := List.mem_map.mp hv
      exact isPart_partAt h e.2
  · intro es hes
    cases hes

/-- The layers of some nodes after others, and those of their pairs. -/
theorem isLayer_foldl {b : Building} (h : b.Plain) (size : Nat) (numbers : List Nat)
    (own pairs : Array Value) (hown : ∀ l ∈ own, IsLayer l) (hpairs : ∀ l ∈ pairs, IsLayer l) :
    ∀ l ∈ (match numbers.foldl (fun (own, pairs) i =>
        (own.push (b.layerAt i (size + pairs.size)), pairs ++ b.pairsAt i)) (own, pairs) with
      | (own, pairs) => own ++ pairs), IsLayer l := by
  induction numbers generalizing own pairs with
  | nil =>
    intro l hl
    rcases Array.mem_append.mp hl with hl | hl
    · exact hown l hl
    · exact hpairs l hl
  | cons i rest ih =>
    refine ih _ _ (fun l hl => ?_) fun l hl => ?_
    · rcases Array.mem_push.mp hl with hl | rfl
      · exact hown l hl
      · exact isLayer_layerAt h i _
    · rw [Array.mem_def, Array.toList_appendList, List.mem_append, ← Array.mem_def] at hl
      rcases hl with hl | hl
      · exact hpairs l hl
      · exact isLayer_pairsAt b i l hl

theorem isLayer_layers {b : Building} (h : b.Plain) : ∀ l ∈ b.layers, IsLayer l := by
  intro l hl
  exact isLayer_foldl h b.nodes.size (List.range b.nodes.size) #[] #[] (by simp) (by simp) l
    (Array.mem_def.mpr hl)

end Building

/-! ### Documents and texts -/

theorem Document.gives_value (file : String) (d : Document) : Gives Sound (d.value file) := by
  unfold Document.value
  refine Gives.bind (Building.gives_meet (Building.plain_start file d.nodes) d.root) fun b hb => ?_
  refine Gives.bind (Building.gives_levels hb _) fun b hb => ?_
  split
  · rcases Building.isPart_partAt hb d.root with hscalar | ⟨n, htie⟩
    · rw [loosen_of_scalar hscalar]
      exact Gives.ok (.scalar hscalar)
    · rw [htie]
      exact Gives.ok (.knot (Building.isLayer_layers hb))
  · have hempty : Building.Remembers (Array.replicate d.nodes.size none) := by
      intro v hv
      cases Array.eq_of_mem_replicate hv
    exact Gives.ok ((Building.keeps_valueAt hb _ d.root).result hempty)

/-- **The value of a text is sound.** -/
theorem gives_valueOf (room : Nat) (file : String) (text : Text.Portion) :
    Gives Sound (valueOf room file text) := by
  rw [valueOf]
  generalize Document.ofTokens room (Token.ofSource (.ofPortion text)) = document
  refine Gives.bind_any fun d => ?_
  cases d with
  | some d => exact d.gives_value file
  | none => exact Gives.ok (.scalar rfl)

end LintHost.Yaml
