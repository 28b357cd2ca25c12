/-
The text of a source file.

A file is read whatever its bytes are, and the text read holds no CR.  Two laws say which text it
is.  A text that was written as UTF-8 comes back with its line ends unified, each CR LF as one LF
and then each CR that is left.  And a byte of the basic alphabet that ends no line cuts a file in
two: what stands before it and what stands behind it is read as if it were a file of its own.  So
malformed bytes harm the text only as far as the next such byte.

Both laws are laws of `decodeLossy`, carried through `unifyBreaks`.  The second leaves line ends out
because they reach over a cut: a CR and the LF behind it are one line end together and two apart.
-/
import LintHost.Proofs.Spelling
import LintHost.Proofs.Text.Utf8

namespace LintHost

namespace Text

variable {needle new s t : List Char} {c x : Char}

/-! ### Replacing -/

theorem replace_of_occurs (hne : needle ≠ []) :
    replace needle new (needle ++ s) = new ++ replace needle new s := by
  obtain ⟨d, more, rfl⟩ := List.exists_cons_of_ne_nil hne
  have hprefix : (d :: more).isPrefixOf (d :: (more ++ s)) = true :=
    List.isPrefixOf_iff_prefix.mpr (List.prefix_append (d :: more) s)
  rw [List.cons_append, replace, if_pos hprefix, List.length_cons, Nat.add_sub_cancel,
    List.drop_left]

theorem replace_of_not_here (h : ¬needle <+: c :: s) :
    replace needle new (c :: s) = c :: replace needle new s := by
  rw [replace, if_neg (by rwa [List.isPrefixOf_iff_prefix])]

/-- A single character is replaced where it stands. -/
theorem replace_singleton_cons (old : Char) :
    replace [old] [c] (x :: s) = (if x = old then c else x) :: replace [old] [c] s := by
  by_cases hx : x = old
  · rw [if_pos hx, hx]
    exact replace_of_occurs (List.cons_ne_nil old [])
  · rw [if_neg hx]
    apply replace_of_not_here
    rw [List.singleton_prefix_cons_iff]
    exact fun h => hx h.symm

/-! ### Line ends -/

theorem unifyBreaks_cons (h : ∀ rest, c = '\r' → s = '\n' :: rest → False) :
    unifyBreaks (c :: s) = (if c = '\r' then '\n' else c) :: unifyBreaks s := by
  rw [unifyBreaks]
  exact h

/-- **Unifying line ends is to replace CR LF, and then the CR that are left.** -/
theorem unifyBreaks_eq_replace (s : List Char) :
    unifyBreaks s = replace ['\r'] ['\n'] (replace ['\r', '\n'] ['\n'] s) := by
  fun_induction unifyBreaks s with
  | case1 => rw [replace, replace]
  | case2 rest ih =>
    have hpair : replace ['\r', '\n'] ['\n'] ('\r' :: '\n' :: rest) =
        '\n' :: replace ['\r', '\n'] ['\n'] rest := replace_of_occurs (List.cons_ne_nil _ _)
    rw [hpair, replace_singleton_cons, if_neg (by decide), ih]
  | case3 c rest hpair ih =>
    have hno : ¬['\r', '\n'] <+: c :: rest := by
      rintro ⟨back, hback⟩
      injection hback with hc hrest
      exact hpair back hc.symm hrest.symm
    rw [replace_of_not_here hno, replace_singleton_cons, ih]

/-- A text without a CR has no other line ends to unify. -/
theorem unifyBreaks_of_no_return (h : '\r' ∉ s) : unifyBreaks s = s := by
  induction s with
  | nil => rw [unifyBreaks]
  | cons c s ih =>
    have hc : c ≠ '\r' := fun hc => h (hc ▸ List.mem_cons_self)
    rw [unifyBreaks_cons fun _ hr _ => hc hr, if_neg hc, ih fun hs => h (List.mem_cons_of_mem c hs)]

/-- **No line end reaches over a character that is neither CR nor LF.** -/
theorem unifyBreaks_append (hreturn : x ≠ '\r') (hfeed : x ≠ '\n') :
    unifyBreaks (s ++ x :: t) = unifyBreaks s ++ x :: unifyBreaks t := by
  fun_induction unifyBreaks s with
  | case1 =>
    rw [List.nil_append, unifyBreaks_cons fun _ hx _ => hreturn hx, if_neg hreturn, List.nil_append]
  | case2 rest ih =>
    rw [List.cons_append, List.cons_append, unifyBreaks, ih, List.cons_append]
  | case3 c rest hpair ih =>
    have hpair' : ∀ back, c = '\r' → rest ++ x :: t = '\n' :: back → False := by
      intro back hc hback
      cases rest with
      | nil =>
        rw [List.nil_append] at hback
        injection hback with hx
        exact hfeed hx
      | cons d more =>
        injection hback with hd
        exact hpair more hc (hd ▸ rfl)
    rw [List.cons_append, unifyBreaks_cons hpair', ih, List.cons_append]

end Text

namespace Workspace

open Text

variable {w : Workspace} {p : Path} {bytes front back : List UInt8} {x : UInt8}

/-- A path leads to a file with these bytes in it. -/
def HoldsBytes (w : Workspace) (p : Path) (bytes : List UInt8) : Prop :=
  ∃ place f, w.LeadsTo p place (.file f) ∧ f.bytes = bytes

theorem HoldsBytes.readSource (h : w.HoldsBytes p bytes) :
    w.readSource p = .ok (unifyBreaks (Utf8.decodeLossy bytes)) := by
  obtain ⟨place, f, hleads, rfl⟩ := h
  rw [Workspace.readSource, hleads.openFile]
  rfl

/-- A byte of the basic alphabet that ends no line cuts the text of the bytes in two. -/
theorem unifyBreaks_decodeLossy_append (hbasic : x.toNat < 0x80) (hreturn : x ≠ 0x0D)
    (hfeed : x ≠ 0x0A) :
    unifyBreaks (Utf8.decodeLossy (front ++ [x] ++ back)) =
      unifyBreaks (Utf8.decodeLossy front) ++ [Char.ofNat x.toNat] ++
        unifyBreaks (Utf8.decodeLossy back) := by
  rw [List.append_assoc, List.singleton_append, Utf8.decodeLossy_append hbasic,
    unifyBreaks_append (Utf8.ofNat_byte_ne hbasic (by decide) hreturn)
      (Utf8.ofNat_byte_ne hbasic (by decide) hfeed),
    List.append_assoc, List.singleton_append]

/-- **Any file can be read, and its text holds no CR.  Bytes written from a text give the text with
its line ends unified; and a basic byte that ends no line parts a file into two that are read
apart.** -/
theorem readSource_decodes (h : w.HoldsBytes p bytes) :
    ∃ text, w.readSource p = .ok text ∧ '\r' ∉ text ∧
      (∀ t, bytes = Utf8.encode t →
        text = replace ['\r'] ['\n'] (replace ['\r', '\n'] ['\n'] t) ∧
          ('\r' ∉ t → text = t)) ∧
      ∀ front x back, bytes = front ++ [x] ++ back → x.toNat < 0x80 → x ≠ 0x0D → x ≠ 0x0A →
        ∀ wf pf wb pb, HoldsBytes wf pf front → HoldsBytes wb pb back →
          ∃ before after, wf.readSource pf = .ok before ∧ wb.readSource pb = .ok after ∧
            text = before ++ [Char.ofNat x.toNat] ++ after := by
  refine ⟨_, h.readSource, unifyBreaks_no_return _, ?written, ?cut⟩
  case written =>
    rintro t rfl
    rw [Utf8.decodeLossy_encode]
    exact ⟨unifyBreaks_eq_replace t, unifyBreaks_of_no_return⟩
  case cut =>
    rintro front x back rfl hbasic hreturn hfeed wf pf wb pb hfront hback
    exact ⟨_, _, hfront.readSource, hback.readSource,
      unifyBreaks_decodeLossy_append hbasic hreturn hfeed⟩

/-- A file with malformed bytes before and behind a z is cut there; and one that was written with a
CR and a CR LF in its text has two LF in their places. -/
theorem readSource_decodes_of_malformed :
    ∃ w : Workspace,
      (w.HoldsBytes ⟨.relative, ["broken.py"]⟩ [0xE2, 0x82, 0x7A, 0xFF, 0x0D, 0x0A] ∧
        w.readSource ⟨.relative, ["broken.py"]⟩ = .ok ['\uFFFD', 'z', '\uFFFD', '\n']) ∧
      w.HoldsBytes ⟨.relative, ["written.py"]⟩ (Utf8.encode ['é', '\r', '\r', '\n']) ∧
        w.readSource ⟨.relative, ["written.py"]⟩ = .ok ['é', '\n', '\n'] := by
  let entry (bytes : List UInt8) : FileTree := .file ⟨bytes⟩
  let w : Workspace :=
    ⟨.dir [("broken.py", entry [0xE2, 0x82, 0x7A, 0xFF, 0x0D, 0x0A]),
      ("front.py", entry [0xE2, 0x82]), ("back.py", entry [0xFF, 0x0D, 0x0A]),
      ("written.py", entry [0xC3, 0xA9, 0x0D, 0x0D, 0x0A])], [], [], .bare⟩
  have hbroken : w.HoldsBytes ⟨.relative, ["broken.py"]⟩ [0xE2, 0x82, 0x7A, 0xFF, 0x0D, 0x0A] :=
    ⟨["broken.py"], _, ⟨by decide +kernel, rfl⟩, rfl⟩
  have hfront : w.HoldsBytes ⟨.relative, ["front.py"]⟩ [0xE2, 0x82] :=
    ⟨["front.py"], _, ⟨by decide +kernel, rfl⟩, rfl⟩
  have hback : w.HoldsBytes ⟨.relative, ["back.py"]⟩ [0xFF, 0x0D, 0x0A] :=
    ⟨["back.py"], _, ⟨by decide +kernel, rfl⟩, rfl⟩
  have hwritten : w.HoldsBytes ⟨.relative, ["written.py"]⟩
      (Utf8.encode ['é', '\r', '\r', '\n']) :=
    ⟨["written.py"], _, ⟨by decide +kernel, rfl⟩, by decide +kernel⟩
  refine ⟨w, ⟨hbroken, ?_⟩, hwritten, ?_⟩
  · obtain ⟨text, hread, -, -, hcut⟩ := readSource_decodes hbroken
    obtain ⟨before, after, hbefore, hafter, rfl⟩ :=
      hcut [0xE2, 0x82] 0x7A [0xFF, 0x0D, 0x0A] rfl (by decide) (by decide) (by decide)
        w _ w _ hfront hback
    rw [hfront.readSource] at hbefore
    rw [hback.readSource] at hafter
    cases hbefore
    cases hafter
    rw [hread]
    exact congrArg Except.ok (by decide +kernel)
  · obtain ⟨text, hread, -, hwrittenAs, -⟩ := readSource_decodes hwritten
    obtain ⟨rfl, -⟩ := hwrittenAs ['é', '\r', '\r', '\n'] rfl
    rw [hread]
    exact congrArg Except.ok (by decide +kernel)

end Workspace

end LintHost
