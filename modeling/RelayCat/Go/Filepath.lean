import RelayCat.Go.Utf8

/-!
# Paths

The components of a rooted path after `filepath.Clean`: empty ones and dots are dropped, and two
dots take the component before them away. In a path that is not rooted two dots at the front
stay.
-/

namespace RelayCat.Go.Filepath

open Utf8

def separator : UInt8 := 0x2f

/-- The components that are left, with those so far in reverse. -/
def resolve : List Bytes → List Bytes → List Bytes
  | done, [] => done.reverse
  | done, c :: rest =>
    if c = [] ∨ c = literal "." then resolve done rest
    else if c = literal ".." then resolve done.tail rest
    else resolve (c :: done) rest

def components (path : Bytes) : List Bytes := resolve [] (path.splitOn separator)

/-- `filepath.Join` of a rooted directory and one more element, by its components. -/
def join (dir elem : Bytes) : List Bytes := components (dir ++ separator :: elem)

/-- The components that are left of a path that is not rooted. -/
def resolveRelative : List Bytes → List Bytes → List Bytes
  | done, [] => done.reverse
  | done, c :: rest =>
    if c = [] ∨ c = literal "." then resolveRelative done rest
    else if c = literal ".." ∧ done ≠ [] ∧ done.head? ≠ some (literal "..") then
      resolveRelative done.tail rest
    else resolveRelative (c :: done) rest

/-- `filepath.Clean`. -/
def clean (path : Bytes) : Bytes :=
  if path.head? = some separator then separator :: [separator].intercalate (components path)
  else
    match resolveRelative [] (path.splitOn separator) with
    | [] => literal "."
    | cs => [separator].intercalate cs

theorem resolve_concat (done l : List Bytes) {c : Bytes} (hne : c ≠ []) (hdot : c ≠ literal ".")
    (hdots : c ≠ literal "..") : resolve done (l ++ [c]) = resolve done l ++ [c] := by
  induction l generalizing done with
  | nil => simp [resolve, hne, hdot, hdots]
  | cons b l ih =>
    rw [List.cons_append, resolve, resolve]
    split_ifs
    · exact ih done
    · exact ih done.tail
    · exact ih (b :: done)

/-- An element without a separator names a child of the directory. -/
theorem join_eq {dir elem : Bytes} (hseparator : separator ∉ elem) (hne : elem ≠ [])
    (hdot : elem ≠ literal ".") (hdots : elem ≠ literal "..") :
    join dir elem = components dir ++ [elem] := by
  have hsingle : elem.splitOnP (· == separator) = [elem] := by
    apply List.splitOnP_eq_singleton
    intro b hb
    rw [beq_eq_false_iff_ne]
    rintro rfl
    exact hseparator hb
  have hsplit : (dir ++ separator :: elem).splitOnP (· == separator) =
      dir.splitOnP (· == separator) ++ [elem] := by
    rw [List.splitOnP_append_cons dir elem (by decide), hsingle]
  rw [join, components, List.splitOn_eq_splitOnP, hsplit, resolve_concat _ _ hne hdot hdots,
    components, List.splitOn_eq_splitOnP]

/-- A text without a separator stays at the end of the last piece. -/
theorem splitOn_append (path : Bytes) {tail : Bytes} (h : separator ∉ tail) :
    ∃ front c, (path ++ tail).splitOn separator = front ++ [c ++ tail] := by
  simp only [List.splitOn_eq_splitOnP]
  induction path with
  | nil =>
    refine ⟨[], [], List.splitOnP_eq_singleton ?_⟩
    intro b hb
    rw [beq_eq_false_iff_ne]
    rintro rfl
    exact h hb
  | cons b path ih =>
    obtain ⟨front, c, hsplit⟩ := ih
    rw [List.cons_append, List.splitOnP_cons_eq_if_modifyHead, hsplit]
    split_ifs
    · exact ⟨[] :: front, c, rfl⟩
    · cases front with
      | nil => exact ⟨[], b :: c, rfl⟩
      | cons piece front => exact ⟨(b :: piece) :: front, c, rfl⟩

/-- The last component of a path keeps its extension, whatever stands before it. -/
theorem join_extension (dir elem : Bytes) {extension : Bytes} (h : separator ∉ extension)
    (hlength : 2 < extension.length) :
    ∃ front c, join dir (elem ++ extension) = front ++ [c ++ extension] := by
  obtain ⟨front, c, hsplit⟩ := splitOn_append (dir ++ separator :: elem) h
  have hlong {short : Bytes} (hshort : short.length ≤ 2) : c ++ extension ≠ short := by
    rintro rfl
    rw [List.length_append] at hshort
    omega
  refine ⟨resolve [] front, c, ?_⟩
  rw [join, components, ← List.cons_append, ← List.append_assoc, hsplit]
  exact resolve_concat [] front (hlong (by decide)) (hlong (by decide)) (hlong (by decide))

end RelayCat.Go.Filepath
