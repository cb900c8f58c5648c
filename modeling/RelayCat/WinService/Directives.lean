import RelayCat.WinService.Render

/-!
# The directives of an installed unit

`renderSystemdUnit` puts two strings of the caller into a fixed template. The replacer of the
description takes away line ends and doubles percent signs, and the quoting of the command
writes no line end and ends with a quotation mark. A description that ends with a backslash is
the one way to reach another line: systemd joins it with the line below, and that directive
becomes a part of the description.
-/

namespace RelayCat.WinService

open Go Utf8 Systemd

/-- The entries of the template, with a description and a command. -/
def template (description command : Bytes) : List Entry :=
  .header (literal "Unit") :: .directive (literal "Description") description ::
    .directive (literal "Wants") (literal "network-online.target") ::
      (middleEntries ++ .directive (literal "ExecStart") command :: tailEntries)

/-- A description with its line ends replaced by spaces. -/
def spaced (description : Bytes) : Bytes :=
  description.map fun b ↦ if b = 0x0d ∨ b = 0x0a then 0x20 else b

/-- A unit has the entries of the template and no others. Its description means the one that was
asked for, up to white space around it, and its command is that of the configuration. -/
def Contained (cfg : InstallConfig) (unit : Bytes) : Prop :=
  ∃ description,
    entries unit = template description (commandLine cfg.executable cfg.arguments) ∧
    ∀ specifier, strip (expandSpecifiers specifier description) = strip (spaced cfg.description)

section Doubled

theorem replaceDescription_eq (description : Bytes) :
    replaceDescription description = (spaced description).flatMap double := by
  rw [replaceDescription, spaced, List.flatMap_map]
  congr 1
  funext b
  have hspace : double 0x20 = [0x20] := rfl
  split_ifs with h1 h2
  · exact hspace.symm
  · rw [double, if_pos h2]
  · rw [double, if_neg h2]

theorem reverse_double (b : UInt8) : (double b).reverse = double b := by
  unfold double
  split_ifs <;> rfl

theorem dropWhile_double (bs : Bytes) :
    (bs.flatMap double).dropWhile isBlank = (bs.dropWhile isBlank).flatMap double := by
  induction bs with
  | nil => rfl
  | cons b bs ih =>
    rw [List.flatMap_cons]
    by_cases hblank : isBlank b = true
    · have hpercent : b ≠ percent := by
        rintro rfl
        cases hblank
      rw [double, if_neg hpercent, List.singleton_append, List.dropWhile_cons_of_pos hblank,
        List.dropWhile_cons_of_pos hblank, ih]
    · obtain ⟨rest, hrest⟩ : ∃ rest, double b = b :: rest := by
        unfold double
        split_ifs with h
        · exact ⟨[percent], by rw [h]⟩
        · exact ⟨[], rfl⟩
      rw [List.dropWhile_cons_of_neg hblank, List.flatMap_cons, hrest, List.cons_append,
        List.dropWhile_cons_of_neg hblank]

theorem rdropWhile_double (bs : Bytes) :
    (bs.flatMap double).rdropWhile isBlank = (bs.rdropWhile isBlank).flatMap double := by
  have hreverse (bs : Bytes) : (bs.flatMap double).reverse = bs.reverse.flatMap double := by
    rw [List.reverse_flatMap]
    congr 1
    funext b
    exact reverse_double b
  rw [List.rdropWhile, hreverse, dropWhile_double, hreverse, List.rdropWhile]

/-- White space is removed around a value alike before and after percent signs are doubled. -/
theorem strip_double (bs : Bytes) : strip (bs.flatMap double) = (strip bs).flatMap double := by
  rw [strip, rdropWhile_double, dropWhile_double, strip]

/-- A replaced description ends with a backslash if the description does. -/
theorem getLast?_replaceDescription (description : Bytes) :
    (equalsSign :: replaceDescription description).getLast? = some backslash ↔
      description.getLast? = some backslash := by
  cases description using List.reverseRecOn with
  | nil => decide
  | append_singleton front b =>
    rw [replaceDescription, List.flatMap_append, List.flatMap_singleton, List.getLast?_concat,
      ← List.cons_append, List.getLast?_append]
    split_ifs with h1 h2
    · refine iff_of_false (by simp [backslash]) ?_
      rintro ⟨⟩
      exact absurd h1 (by decide)
    · rw [h2]
      exact iff_of_false (by simp [percent, backslash]) (by decide)
    · rfl

end Doubled

section Template

variable {cfg : InstallConfig} {unit : Bytes}

theorem strip_strip (bs : Bytes) : strip (strip bs) = strip bs := by
  have hright : (strip bs).rdropWhile isBlank = strip bs := by
    rw [List.rdropWhile_eq_self_iff]
    intro hne
    have hlast : (strip bs).getLast hne = (bs.rdropWhile isBlank).getLast _ :=
      (List.dropWhile_suffix isBlank).getLast hne
    rw [hlast]
    exact List.rdropWhile_last_not isBlank bs _
  rw [strip, hright, strip]
  exact List.dropWhile_idempotent isBlank (bs.rdropWhile isBlank)

/-- The unit of a configuration has the directives of the template exactly if the description
does not end with a backslash. -/
theorem contained_iff (h : renderSystemdUnit cfg = .ok unit) :
    Contained cfg unit ↔ cfg.description.getLast? ≠ some backslash := by
  unfold Contained
  rw [entries_renderSystemdUnit h, ne_eq, ← getLast?_replaceDescription, descriptionEntries]
  split_ifs with hlast
  · refine iff_of_false ?_ (not_not_intro hlast)
    rintro ⟨description, hentries, -⟩
    have hlength := congrArg List.length hentries
    simp [template] at hlength
  · refine iff_of_true ⟨_, rfl, fun specifier ↦ ?_⟩ hlast
    rw [replaceDescription_eq, strip_double, expandSpecifiers_double, strip_strip]

/-- A description with a line end and percent signs, and arguments that need quoting. -/
theorem contained_sampleArguments :
    ∃ unit, renderSystemdUnit (sampleConfig sampleArguments) = .ok unit ∧
      Contained (sampleConfig sampleArguments) unit := by
  obtain ⟨unit, hunit⟩ := exists_renderSystemdUnit
    (show isAbs (sampleConfig sampleArguments).executable = true from isAbs_sample)
  exact ⟨unit, hunit, (contained_iff hunit).mpr (by decide +kernel)⟩

/-- The description `C:\` takes in the directive below it. -/
theorem not_contained_backslash :
    ∃ unit, renderSystemdUnit { sampleConfig [] with description := literal "C:\\" } = .ok unit ∧
      entries unit = .header (literal "Unit") ::
        .directive (literal "Description") (literal "C: Wants=network-online.target") ::
          (middleEntries ++ .directive (literal "ExecStart")
            (literal "\"/opt/relay cat/relaycat\"") :: tailEntries) ∧
      ¬ Contained { sampleConfig [] with description := literal "C:\\" } unit := by
  obtain ⟨unit, hunit⟩ := exists_renderSystemdUnit
    (show isAbs ({ sampleConfig [] with description := literal "C:\\" } :
      InstallConfig).executable = true from isAbs_sample)
  have hentries : entries unit = .header (literal "Unit") ::
      .directive (literal "Description") (literal "C: Wants=network-online.target") ::
        (middleEntries ++ .directive (literal "ExecStart")
          (literal "\"/opt/relay cat/relaycat\"") :: tailEntries) := by
    have hdescription : descriptionEntries (replaceDescription (literal "C:\\")) =
        [.directive (literal "Description") (literal "C: Wants=network-online.target")] := by
      decide +kernel
    have hcommand : commandLine (literal "/opt/relay cat/relaycat") [] =
        literal "\"/opt/relay cat/relaycat\"" := by
      rw [literal_ofList, literal_ofList]
      decide +kernel
    rw [entries_renderSystemdUnit hunit]
    simp only [sampleConfig, hdescription, hcommand, List.cons_append, List.nil_append]
  refine ⟨unit, hunit, hentries, ?_⟩
  rintro ⟨description, htemplate, -⟩
  rw [hentries] at htemplate
  have hlength := congrArg List.length htemplate
  simp [template] at hlength

end Template

end RelayCat.WinService
