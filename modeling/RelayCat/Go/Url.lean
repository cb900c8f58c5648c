import RelayCat.Go.Utf8

/-!
# References to resources

The split of a URI reference into its parts by RFC 3986, Appendix B, with the authority split
into user information and host. The split itself is total: a fragment starts at the first number
sign, a query at the first question mark before it, a scheme ends at the first colon, and an
authority stands between two slashes and the next one. A part that is there and empty is not the
same as a part that is not there.
-/

namespace RelayCat.Go.Url

open Utf8

def numberSign : UInt8 := 0x23
def percentSign : UInt8 := 0x25
def slash : UInt8 := 0x2f
def colon : UInt8 := 0x3a
def questionMark : UInt8 := 0x3f
def atSign : UInt8 := 0x40

/-- `strings.Cut` at a byte: what stands before its first occurrence, and after it. -/
def cut (b : UInt8) : Bytes → Bytes × Option Bytes
  | [] => ([], none)
  | c :: rest => if c = b then ([], some rest) else (c :: (cut b rest).1, (cut b rest).2)

/-- The same at the last occurrence: what stands before it, and after it. -/
def cutLast (b : UInt8) (bs : Bytes) : Option Bytes × Bytes :=
  match cut b bs.reverse with
  | (_, none) => (none, bs)
  | (after, some before) => (some before.reverse, after.reverse)

structure Reference where
  scheme : Option Bytes
  userinfo : Option Bytes
  host : Bytes
  path : Bytes
  query : Option Bytes
  fragment : Option Bytes
  deriving DecidableEq, Repr

/-- The scheme and what follows it. -/
def splitScheme (body : Bytes) : Option Bytes × Bytes :=
  match cut colon body with
  | (_, none) => (none, body)
  | (scheme, some rest) =>
    if scheme = [] ∨ slash ∈ scheme then (none, body) else (some scheme, rest)

/-- The authority and the path. The host is empty if there is no authority. -/
def splitAuthority : Bytes → Option Bytes × Bytes × Bytes
  | a :: b :: rest =>
    if a = slash ∧ b = slash then
      let (userinfo, host) := cutLast atSign (rest.takeWhile (· ≠ slash))
      (userinfo, host, rest.dropWhile (· ≠ slash))
    else (none, [], a :: b :: rest)
  | hier => (none, [], hier)

/-- What stands before the query and the fragment. -/
def hierarchy (raw : Bytes) : Bytes := (cut questionMark (cut numberSign raw).1).1

def split (raw : Bytes) : Reference where
  scheme := (splitScheme (hierarchy raw)).1
  userinfo := (splitAuthority (splitScheme (hierarchy raw)).2).1
  host := (splitAuthority (splitScheme (hierarchy raw)).2).2.1
  path := (splitAuthority (splitScheme (hierarchy raw)).2).2.2
  query := (cut questionMark (cut numberSign raw).1).2
  fragment := (cut numberSign raw).2

def hexValue (c : UInt8) : Option ℕ :=
  if 0x30 ≤ c ∧ c ≤ 0x39 then some (c.toNat - 0x30)
  else if 0x41 ≤ c ∧ c ≤ 0x46 then some (c.toNat - 0x41 + 10)
  else if 0x61 ≤ c ∧ c ≤ 0x66 then some (c.toNat - 0x61 + 10)
  else none

/-- Percent-decoding. -/
def unescape : Bytes → Option Bytes
  | [] => some []
  | c :: rest =>
    if c = percentSign then
      match rest with
      | a :: b :: rest =>
        match hexValue a, hexValue b with
        | some a, some b => (unescape rest).map (UInt8.ofNat (16 * a + b) :: ·)
        | _, _ => none
      | _ => none
    else (unescape rest).map (c :: ·)

def toLower (c : UInt8) : UInt8 := if 0x41 ≤ c ∧ c ≤ 0x5a then c + 0x20 else c

section Cut

variable {b : UInt8}

theorem cut_eq (b : UInt8) (bs : Bytes) :
    bs = (cut b bs).1 ++ ((cut b bs).2.elim [] (b :: ·)) := by
  induction bs with
  | nil => rfl
  | cons c rest ih =>
    rw [cut]
    split_ifs with hc
    · rw [hc]
      rfl
    · exact congrArg (c :: ·) ih

theorem notMem_cut (b : UInt8) (bs : Bytes) : b ∉ (cut b bs).1 := by
  induction bs with
  | nil => exact List.not_mem_nil
  | cons c rest ih =>
    rw [cut]
    split_ifs with hc
    · exact List.not_mem_nil
    · rw [List.mem_cons, not_or]
      exact ⟨fun heq ↦ hc heq.symm, ih⟩

/-- Without the byte there is nothing to cut off. -/
theorem cut_of_notMem {bs : Bytes} (h : b ∉ bs) : cut b bs = (bs, none) := by
  induction bs with
  | nil => rfl
  | cons c rest ih =>
    rw [List.mem_cons, not_or] at h
    rw [cut, if_neg (Ne.symm h.1), ih h.2]

theorem cut_snd_eq_none (bs : Bytes) : (cut b bs).2 = none ↔ b ∉ bs := by
  constructor
  · intro h
    have hbs := cut_eq b bs
    rw [h, Option.elim_none, List.append_nil] at hbs
    rw [hbs]
    exact notMem_cut b bs
  · intro h
    rw [cut_of_notMem h]

theorem cutLast_fst_eq_none (bs : Bytes) : (cutLast b bs).1 = none ↔ b ∉ bs := by
  rw [← List.mem_reverse, ← cut_snd_eq_none]
  unfold cutLast
  split
  · rename_i before h
    simp [h]
  · rename_i after before h
    simp [h]

end Cut

section Unescape

theorem unescape_of_ne {c : UInt8} (h : c ≠ percentSign) (rest : Bytes) :
    unescape (c :: rest) = (unescape rest).map (c :: ·) := by
  rw [unescape.eq_def (c :: rest)]
  exact if_neg h

theorem unescape_eq_nil {bs : Bytes} (h : unescape bs = some []) : bs = [] := by
  cases bs with
  | nil => rfl
  | cons c rest =>
    have hcons {d : UInt8} {tail : Option Bytes} : tail.map (d :: ·) ≠ some [] := by
      cases tail <;> simp
    unfold unescape at h
    split_ifs at h
    · split at h
      · split at h
        · exact absurd h hcons
        · cases h
      · cases h
    · exact absurd h hcons

theorem unescape_eq_slash {rest : Bytes} (h : unescape (slash :: rest) = some [slash]) :
    rest = [] := by
  rw [unescape_of_ne (by decide)] at h
  obtain ⟨tail, htail, hcons⟩ := Option.map_eq_some_iff.mp h
  cases hcons
  exact unescape_eq_nil htail

end Unescape

section Parts

variable {raw body hier scheme : Bytes}

theorem eq_of_splitScheme (h : splitScheme body = (some scheme, hier)) :
    body = scheme ++ colon :: hier := by
  have hcut := cut_eq colon body
  unfold splitScheme at h
  split at h
  · cases h
  · rename_i before after hbody
    split_ifs at h
    · cases h
    · simp only [Prod.mk.injEq, Option.some.injEq] at h
      obtain ⟨rfl, rfl⟩ := h
      rw [hbody] at hcut
      exact hcut

/-- A host stands in an authority, which goes up to the path. -/
theorem exists_of_splitAuthority (h : (splitAuthority hier).2.1 ≠ []) :
    ∃ rest, hier = slash :: slash :: rest ∧
      splitAuthority hier = ((cutLast atSign (rest.takeWhile (· ≠ slash))).1,
        (cutLast atSign (rest.takeWhile (· ≠ slash))).2, rest.dropWhile (· ≠ slash)) := by
  unfold splitAuthority at h ⊢
  split at h
  · rename_i a b rest
    split_ifs at h with hslashes
    · obtain ⟨rfl, rfl⟩ := hslashes
      exact ⟨rest, rfl, if_pos ⟨rfl, rfl⟩⟩
    · exact absurd rfl h
  · exact absurd rfl h

/-- With a host, the path is empty or starts with a slash. -/
theorem path_of_host (h : (split raw).host ≠ []) :
    (split raw).path = [] ∨ ∃ rest, (split raw).path = slash :: rest := by
  obtain ⟨rest, -, hparts⟩ := exists_of_splitAuthority h
  have hpath : (split raw).path = rest.dropWhile (· ≠ slash) :=
    congrArg (fun parts ↦ parts.2.2) hparts
  rw [hpath]
  cases hdrop : rest.dropWhile (· ≠ slash) with
  | nil => exact Or.inl rfl
  | cons c tail =>
    have hc := List.head?_dropWhile_not (· ≠ slash) rest
    rw [hdrop] at hc
    have hslash : c = slash := by simpa using hc
    exact Or.inr ⟨tail, by rw [hslash]⟩

theorem fragment_eq_none : (split raw).fragment = none ↔ numberSign ∉ raw := cut_snd_eq_none raw

theorem query_eq_none (h : numberSign ∉ raw) :
    (split raw).query = none ↔ questionMark ∉ raw := by
  rw [split, cut_of_notMem h]
  exact cut_snd_eq_none raw

theorem userinfo_eq_none (hnumber : numberSign ∉ raw) (hquestion : questionMark ∉ raw)
    (hscheme : (split raw).scheme = some scheme) (hat : atSign ∉ scheme)
    (hhost : (split raw).host ≠ []) (hpath : atSign ∉ (split raw).path) :
    (split raw).userinfo = none ↔ atSign ∉ raw := by
  have hhierarchy : hierarchy raw = raw := by
    rw [hierarchy, cut_of_notMem hnumber, cut_of_notMem hquestion]
  obtain ⟨rest, hhier, hparts⟩ := exists_of_splitAuthority hhost
  have huser : (split raw).userinfo = (cutLast atSign (rest.takeWhile (· ≠ slash))).1 :=
    congrArg (fun parts ↦ parts.1) hparts
  have hrest : (split raw).path = rest.dropWhile (· ≠ slash) :=
    congrArg (fun parts ↦ parts.2.2) hparts
  have hraw : raw = scheme ++ colon :: slash :: slash ::
      (rest.takeWhile (· ≠ slash) ++ (split raw).path) := by
    rw [hrest, List.takeWhile_append_dropWhile, ← hhier]
    nth_rewrite 1 [← hhierarchy]
    exact eq_of_splitScheme (Prod.ext hscheme rfl)
  have hmem : atSign ∈ raw ↔ atSign ∈ rest.takeWhile (· ≠ slash) := by
    rw [hraw]
    have hcolon : atSign ≠ colon := by decide
    have hslash : atSign ≠ slash := by decide
    simp only [List.mem_append, List.mem_cons, hat, hpath, hcolon, hslash, false_or, or_false]
  rw [huser, cutLast_fst_eq_none, hmem]

end Parts

end RelayCat.Go.Url
