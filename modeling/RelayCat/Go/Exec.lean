import RelayCat.Go.Url

/-!
# The environment of a command

`os/exec` removes duplicates from the environment of a command before it starts the command: of
the entries with one key the last stays. A program looks a variable up in the entries it was
given and takes the first. So what a command sees of a variable is its last value in the list,
and an entry that is not there for one program cannot be there for another.
-/

namespace RelayCat.Go.Exec

open Url (cut cut_eq notMem_cut cut_of_notMem)

def equalSign : UInt8 := 0x3d

/-- The key of an entry, or none if it has no equals sign. A leading equals sign belongs to the
key. -/
def entryKey : Bytes → Option Bytes
  | [] => none
  | c :: rest =>
    if c = equalSign then
      match cut equalSign rest with
      | (key, some _) => some (c :: key)
      | (_, none) => some []
    else
      match cut equalSign (c :: rest) with
      | (key, some _) => some key
      | (_, none) => none

/-- The loop of `dedupEnv`, which runs over the entries from the last to the first. -/
def dedupFrom (saw : List Bytes) : List Bytes → List Bytes
  | [] => []
  | entry :: rest =>
    match entryKey entry with
    | none => if entry = [] then dedupFrom saw rest else entry :: dedupFrom saw rest
    | some key =>
      if saw.contains key then dedupFrom saw rest else entry :: dedupFrom (key :: saw) rest

/-- `dedupEnv`, with keys that differ in case apart. -/
def dedupEnv (env : List Bytes) : Except Err (List Bytes) :=
  if ∃ entry ∈ env, 0 ∈ entry then .error (.new "exec: environment variable contains NUL")
  else .ok (dedupFrom [] env.reverse).reverse

/-- The name of a variable. -/
def IsName (name : Bytes) : Prop := name ≠ [] ∧ equalSign ∉ name

instance : DecidablePred IsName := fun name ↦
  inferInstanceAs (Decidable (name ≠ [] ∧ equalSign ∉ name))

/-- What an entry says about a variable. -/
def valueOf (name entry : Bytes) : Option Bytes :=
  if (cut equalSign entry).1 = name then (cut equalSign entry).2 else none

/-- The value of a variable to a program that is given these entries. -/
def getenv (env : List Bytes) (name : Bytes) : Option Bytes := env.findSome? (valueOf name)

/-- The last value of a variable in a list of entries. -/
def lastValue (env : List Bytes) (name : Bytes) : Option Bytes :=
  env.reverse.findSome? (valueOf name)

section Keys

variable {name entry : Bytes}

theorem valueOf_pair {key : Bytes} (hkey : equalSign ∉ key) (name value : Bytes) :
    valueOf name (key ++ equalSign :: value) = if key = name then some value else none := by
  have hcut : cut equalSign (key ++ equalSign :: value) = (key, some value) := by
    induction key with
    | nil => simp [cut]
    | cons c rest ih =>
      rw [List.mem_cons, not_or] at hkey
      rw [List.cons_append, cut, if_neg (Ne.symm hkey.1), ih hkey.2]
  simp [valueOf, hcut]

theorem dedupEnv_isOk {env : List Bytes} :
    (∃ given, dedupEnv env = .ok given) ↔ ∀ entry ∈ env, 0 ∉ entry := by
  unfold dedupEnv
  split_ifs with hnul
  · obtain ⟨entry, hentry, hzero⟩ := hnul
    exact iff_of_false (by simp) fun h ↦ h entry hentry hzero
  · exact iff_of_true ⟨_, rfl⟩ fun entry hentry hzero ↦ hnul ⟨entry, hentry, hzero⟩

/-- The entries that say something about a variable are those with its name as key. -/
theorem entryKey_eq_some_iff (hname : IsName name) :
    entryKey entry = some name ↔ valueOf name entry ≠ none := by
  obtain ⟨hne, hsign⟩ := hname
  cases entry with
  | nil => simp [entryKey, valueOf, cut]
  | cons c rest =>
    by_cases hc : c = equalSign
    · have hkey : entryKey (c :: rest) ≠ some name := by
        rw [entryKey, if_pos hc]
        split
        · rintro ⟨⟩
          exact hsign (by simp [hc])
        · rintro ⟨⟩
          exact hne rfl
      have hvalue : valueOf name (c :: rest) = none := by
        rw [valueOf, cut, if_pos hc, if_neg (Ne.symm hne)]
      exact iff_of_false hkey (not_not.mpr hvalue)
    · rw [entryKey, if_neg hc, valueOf]
      split <;> simp_all

theorem valueOf_eq_none_of_key (hname : IsName name) (hkey : entryKey entry ≠ some name) :
    valueOf name entry = none := by
  by_contra hvalue
  exact hkey ((entryKey_eq_some_iff hname).mpr hvalue)

/-- Of the entries for a variable whose key has not been seen, the first one stays. -/
theorem filterMap_dedupFrom (hname : IsName name) (saw entries : List Bytes) :
    (dedupFrom saw entries).filterMap (valueOf name) =
      if name ∈ saw then [] else (entries.findSome? (valueOf name)).toList := by
  induction entries generalizing saw with
  | nil => simp [dedupFrom]
  | cons entry rest ih =>
    rw [dedupFrom]
    cases hkey : entryKey entry with
    | none =>
      have hvalue : valueOf name entry = none := valueOf_eq_none_of_key hname (by simp [hkey])
      simp only
      split_ifs <;> simp_all
    | some key =>
      by_cases hkn : key = name
      · subst hkn
        obtain ⟨value, hvalue⟩ :=
          Option.ne_none_iff_exists'.mp ((entryKey_eq_some_iff hname).mp hkey)
        simp only [List.contains_iff_mem]
        split_ifs with hsaw <;> simp [ih, hsaw, hvalue]
      · have hvalue : valueOf name entry = none :=
          valueOf_eq_none_of_key hname (by simpa [hkey] using hkn)
        have hmem : name ∈ key :: saw ↔ name ∈ saw := by simp [Ne.symm hkn]
        simp only [List.contains_iff_mem]
        split_ifs with hsaw hname' <;> simp_all

/-- A command sees the last value of a variable. -/
theorem getenv_of_dedupEnv {env given : List Bytes} (h : dedupEnv env = .ok given)
    (hname : IsName name) : getenv given name = lastValue env name := by
  unfold dedupEnv at h
  split_ifs at h
  cases h
  rw [getenv, ← List.head?_filterMap, List.filterMap_reverse, filterMap_dedupFrom hname, lastValue]
  cases env.reverse.findSome? (valueOf name) <;> simp

end Keys

section Lists

variable {env : List Bytes} {name : Bytes}

@[simp] theorem lastValue_nil (name : Bytes) : lastValue [] name = none := rfl

/-- Later entries come first. -/
theorem lastValue_append (env env' : List Bytes) (name : Bytes) :
    lastValue (env ++ env') name = (lastValue env' name).or (lastValue env name) := by
  rw [lastValue, List.reverse_append, List.findSome?_append]
  rfl

theorem lastValue_cons (entry : Bytes) (env : List Bytes) (name : Bytes) :
    lastValue (entry :: env) name = (lastValue env name).or (valueOf name entry) := by
  rw [← List.singleton_append, lastValue_append]
  simp [lastValue]

/-- Entries for other variables may be left out. -/
theorem lastValue_filter (p : Bytes → Bool)
    (h : ∀ entry ∈ env, valueOf name entry ≠ none → p entry = true) :
    lastValue (env.filter p) name = lastValue env name := by
  induction env with
  | nil => rfl
  | cons entry rest ih =>
    have hrest := ih fun entry hentry ↦ h entry (List.mem_cons_of_mem _ hentry)
    by_cases hp : p entry = true
    · rw [List.filter_cons_of_pos hp, lastValue_cons, lastValue_cons, hrest]
    · have hvalue : valueOf name entry = none := by
        by_contra hvalue
        exact hp (h entry List.mem_cons_self hvalue)
      rw [List.filter_cons_of_neg hp, lastValue_cons, hvalue, Option.or_none, hrest]

/-- Without an entry for it a variable has no value. -/
theorem lastValue_eq_none (h : ∀ entry ∈ env, valueOf name entry = none) :
    lastValue env name = none := by
  rw [lastValue, List.findSome?_eq_none_iff]
  exact fun entry hentry ↦ h entry (List.mem_reverse.mp hentry)

end Lists

end RelayCat.Go.Exec
