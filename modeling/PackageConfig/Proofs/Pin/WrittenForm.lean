import PackageConfig.Pin.Set
import PackageConfig.Proofs.Text.Trimming

/-!
The written form of a pin.

Reading trims a text, cuts it at its first slash and looks at the two halves. What it accepts is
said here of the whole text: between blanks at its ends it is `name/version`, and the two parts are
words, without slash and without blank (`Writes`, `read_eq_ok_iff`). The written form of a pin with
such parts has no blank at all, so that it is read back as it is (`writes_shown`).
-/

namespace PackageConfig.Pin

variable {s : String} {pin : Pin}

/-- A part of a pin has characters, and none of them is a slash or a blank. -/
structure IsWord (part : String) : Prop where
  nonempty : part ≠ ""
  unslashed : '/' ∉ part.toList
  unblank : ∀ c ∈ part.toList, Text.isBlank c = false

theorem isPart_toList_iff {part : String} : isPart part.toList = true ↔ IsWord part := by
  have empty : part.toList = [] ↔ part = "" := String.toList_eq_nil_iff
  simp only [isPart, Bool.and_eq_true, Bool.not_eq_true', List.all_eq_true, bne_iff_ne,
    List.isEmpty_eq_false_iff, ne_eq, empty]
  constructor
  · rintro ⟨nonempty, each⟩
    exact ⟨nonempty, fun mem => (each _ mem).1 rfl, fun c mem => (each c mem).2⟩
  · intro word
    exact ⟨word.nonempty, fun c mem => ⟨fun slash => word.unslashed (slash ▸ mem),
      word.unblank c mem⟩⟩

/-- A text writes a pin: it is its name, a slash and its version between blanks, and the two parts
are words. -/
structure Writes (s : String) (pin : Pin) : Prop where
  trims : Text.Trims s (pin.name ++ "/" ++ pin.version)
  name : IsWord pin.name
  version : IsWord pin.version

theorem parse?_eq_some_iff : parse? s = some pin ↔ Writes s pin := by
  unfold parse?
  rw [← Text.toList_trim]
  constructor
  · intro parsed
    cases found : Text.cutChars '/' (Text.trim s).toList with
    | none =>
      rw [found] at parsed
      cases parsed
    | some parts =>
      obtain ⟨name, version⟩ := parts
      obtain ⟨split, -⟩ := Text.cutChars_eq_some_iff.1 found
      simp only [found] at parsed
      split at parsed
      next fit =>
        cases parsed
        obtain ⟨nameFits, versionFits⟩ := Bool.and_eq_true_iff.1 fit
        refine ⟨Text.trim_eq_iff.1 (String.toList_inj.1 ?_), isPart_toList_iff.1 ?_,
          isPart_toList_iff.1 ?_⟩
        · simp [split]
        · rwa [String.toList_ofList]
        · rwa [String.toList_ofList]
      next => cases parsed
  · intro written
    have split : (Text.trim s).toList = pin.name.toList ++ '/' :: pin.version.toList := by
      rw [Text.trim_eq_iff.2 written.trims]
      simp
    have found := Text.cutChars_eq_some_iff.2 ⟨split, written.name.unslashed⟩
    simp only [found, isPart_toList_iff.2 written.name, isPart_toList_iff.2 written.version,
      Bool.and_self, if_true, String.ofList_toList]

theorem read_eq_ok_iff : read s = .ok pin ↔ Writes s pin := by
  rw [← parse?_eq_some_iff, read]
  cases parse? s <;> simp

/-- A text with words around a slash is written without any blank. -/
theorem writes_shown (name : IsWord pin.name) (version : IsWord pin.version) :
    Writes pin.shown pin := by
  have unblank : ∀ c ∈ (pin.name ++ "/" ++ pin.version).toList, Text.isBlank c = false := by
    intro c mem
    simp only [String.toList_append, List.mem_append] at mem
    rcases mem with (mem | slash) | mem
    · exact name.unblank c mem
    · cases List.mem_singleton.1 slash
      decide
    · exact version.unblank c mem
  exact ⟨.self (fun c found => unblank c (List.mem_of_head? found))
    fun c found => unblank c (List.mem_of_getLast? found), name, version⟩

/-- A text is read as a name and a version exactly if, without the blanks at its ends, it is the two
with a slash between them, both being words. The pin that is read is shown as the trimmed text, and
every pin of two words is read back from what it is shown as. -/
theorem read_iff_written (s : String) :
    (∀ name version, read s = .ok ⟨name, version⟩ ↔
      Text.Trims s (name ++ "/" ++ version) ∧ IsWord name ∧ IsWord version) ∧
    (∀ pin, read s = .ok pin → pin.shown = Text.trim s) ∧
    ∀ pin, IsWord pin.name → IsWord pin.version → read pin.shown = .ok pin := by
  refine ⟨fun name version => ?_, fun pin found => ?_, fun pin name version => ?_⟩
  · rw [read_eq_ok_iff]
    exact ⟨fun written => ⟨written.trims, written.name, written.version⟩,
      fun ⟨trims, name, version⟩ => ⟨trims, name, version⟩⟩
  · exact (Text.trim_eq_iff.2 (read_eq_ok_iff.1 found).trims).symm
  · exact read_eq_ok_iff.2 (writes_shown name version)

/-- A wide space in front of a pin and a line end behind it do not count. -/
theorem read_iff_written_wide :
    let s := "\u2003libjpeg-turbo/2.1.91\n"
    let pin : Pin := ⟨"libjpeg-turbo", "2.1.91"⟩
    Text.Trims s (pin.name ++ "/" ++ pin.version) ∧ IsWord pin.name ∧ IsWord pin.version ∧
      read s = .ok pin ∧ pin.shown = Text.trim s ∧ read pin.shown = .ok pin := by
  intro s pin
  have found : read s = .ok pin := by decide
  obtain ⟨accepted, shown, back⟩ := read_iff_written s
  obtain ⟨trims, name, version⟩ := (accepted pin.name pin.version).1 found
  exact ⟨trims, name, version, found, shown pin found, back pin name version⟩

/-- A second slash, a no-break space beside the slash and an empty half are refused. -/
example : ["zlib/1.2/3", "zlib\u00a0/1.2", "/1.0", "zlib/", "zlib"].map parse? =
    [none, none, none, none, none] := by
  decide

end PackageConfig.Pin
