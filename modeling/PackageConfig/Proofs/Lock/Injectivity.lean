import PackageConfig.Proofs.Lock.RoundTrip

/-!
A lockfile pins exactly one resolution.

Each step from a resolution to its lockfile can be undone: the word for the platform
names its three parts, the maps are determined by their entries, a set of pins by its
pins, and the bytes by the laws of the formats. Two resolutions therefore have the same
lockfile only if they are the same, and comparing a resolution with a lockfile answers
whether the lockfile was written from it.
-/

namespace PackageConfig

/-! ## Platforms -/

/-- The first mark splits a text in one way. -/
theorem Text.append_cons_inj {mark : Char} {a b c d : List Char} (left : mark ∉ a)
    (right : mark ∉ c) (h : a ++ mark :: b = c ++ mark :: d) : a = c ∧ b = d := by
  have first : cutChars mark (a ++ mark :: b) = some (a, b) :=
    cutChars_eq_some_iff.2 ⟨rfl, left⟩
  have second : cutChars mark (c ++ mark :: d) = some (c, d) :=
    cutChars_eq_some_iff.2 ⟨rfl, right⟩
  rw [h, second] at first
  cases first
  exact ⟨rfl, rfl⟩

namespace Platform

theorem os_name_injective {a b : Os} (h : a.name = b.name) : a = b := by
  cases a <;> cases b <;> revert h <;> decide

theorem compiler_name_injective {a b : Compiler} (h : a.name = b.name) : a = b := by
  cases a <;> cases b <;> revert h <;> decide

theorem arch_name_injective {a b : Arch} (h : a.name = b.name) : a = b := by
  cases a <;> cases b <;> revert h <;> decide

theorem dash_not_mem_os (os : Os) : '-' ∉ os.name.toList := by
  cases os <;> decide

theorem dash_not_mem_arch (arch : Arch) : '-' ∉ arch.name.toList := by
  cases arch <;> decide

theorem toList_shown (p : Platform) :
    p.shown.toList = p.arch.name.toList ++
      '-' :: (p.os.name.toList ++ '-' :: p.compiler.name.toList) := by
  change (p.arch.name ++ "-" ++ p.os.name ++ "-" ++ p.compiler.name).toList = _
  simp

/-- The word for a platform tells its three parts: neither an architecture nor an
operating system has a dash in its name. -/
theorem shown_injective {p q : Platform} (h : p.shown = q.shown) : p = q := by
  have chars := congrArg String.toList h
  rw [toList_shown, toList_shown] at chars
  obtain ⟨archs, chars⟩ :=
    Text.append_cons_inj (dash_not_mem_arch p.arch) (dash_not_mem_arch q.arch) chars
  obtain ⟨systems, compilers⟩ :=
    Text.append_cons_inj (dash_not_mem_os p.os) (dash_not_mem_os q.os) chars
  obtain ⟨os, compiler, arch⟩ := p
  obtain ⟨os', compiler', arch'⟩ := q
  cases os_name_injective (String.toList_inj.1 systems)
  cases compiler_name_injective (String.toList_inj.1 compilers)
  cases arch_name_injective (String.toList_inj.1 archs)
  rfl

end Platform

/-! ## Resolutions and locks -/

theorem NameMap.entries_injective {α : Type} {m n : NameMap α} (h : m.entries = n.entries) :
    m = n := by
  cases m
  cases n
  cases h
  rfl

theorem Linkage.isShared_injective {a b : Linkage} (h : a.isShared = b.isShared) : a = b := by
  cases a <;> cases b <;> revert h <;> decide

namespace PinSet

/-- The entries of a set can be told from its pins, since each stands under its name. -/
theorem entries_eq_map (set : PinSet) :
    set.pins.entries = set.toList.map fun pin => (pin.name, pin) := by
  rw [toList, NameMap.values, List.map_map]
  refine (List.map_id _).symm.trans (List.map_congr_left fun entry mem => ?_)
  exact Prod.ext (set.named entry mem).symm rfl

theorem toList_injective {a b : PinSet} (h : a.toList = b.toList) : a = b := by
  have entries : a.pins.entries = b.pins.entries := by
    rw [entries_eq_map, entries_eq_map, h]
  have pins := NameMap.entries_injective entries
  cases a
  cases b
  cases pins
  rfl

end PinSet

namespace Lock

theorem ofResolution_injective {r₁ r₂ : Resolution} (h : ofResolution r₁ = ofResolution r₂) :
    r₁ = r₂ := by
  obtain ⟨platform₁, linkage₁, ⟨states₁⟩, pins₁, table₁⟩ := r₁
  obtain ⟨platform₂, linkage₂, ⟨states₂⟩, pins₂, table₂⟩ := r₂
  simp only [ofResolution, Lock.mk.injEq] at h
  obtain ⟨platforms, linkages, states, pins, tables⟩ := h
  cases Platform.shown_injective platforms
  cases Linkage.isShared_injective linkages
  cases NameMap.entries_injective states
  cases PinSet.toList_injective pins
  cases NameMap.entries_injective tables
  rfl

/-- No two locks have the same bytes. The header ends where it says itself, and so the
four bytes in front of it play no part. -/
theorem toBytes_injective {a b : Lock} (h : a.toBytes = b.toBytes) : a = b := by
  simp only [toBytes, List.append_assoc] at h
  obtain ⟨-, h⟩ := List.append_inj h rfl
  obtain ⟨-, bodies⟩ := Format.header_unambiguous.append_inj h
  have ended : Format.lock.write a ++ [] = Format.lock.write b ++ [] := by
    rw [List.append_nil, List.append_nil, bodies]
  exact (Format.lock_unambiguous.append_inj ended).1

/-- A lock without too long a list is read back from its bytes. -/
theorem ofBytes_toBytes_of_le {lock : Lock} (texts : ∀ s ∈ lock.texts, Text.Fits s)
    (short : ∀ list, lock.count list ≤ LockList.limit) : ofBytes lock.toBytes = .ok lock := by
  have fits : lock.Fits :=
    ⟨texts, fun list => Nat.lt_of_le_of_lt (short list) (by decide)⟩
  have none_long : lock.firstTooLong? = none := by
    simp [firstTooLong?, Nat.not_lt.2 (short _)]
  rw [ofBytes_toBytes fits, check_ofLock fits, none_long]
  rfl

end Lock

namespace Resolution

/-- Two resolutions have the same lockfile only if they are the same. Comparing one with
the lockfile of the other never fails, and answers whether they are the same, as long as
each list has at most as many entries as a lockfile may announce and the length of each
text, as of every text in memory, is a number of 64 bits. -/
theorem lockfile_pins_one (r₁ r₂ : Resolution) :
    (r₁.lockFile = r₂.lockFile ↔ r₁ = r₂) ∧
      ∃ bytes, r₂.lockFile = .ok bytes ∧
        ((∀ list, (Lock.ofResolution r₂).count list ≤ 100000) →
          (∀ s ∈ (Lock.ofResolution r₂).texts, Text.Fits s) →
          r₁.isLockedBy bytes = .ok (decide (r₁ = r₂))) := by
  refine ⟨⟨fun same => ?_, fun same => same ▸ rfl⟩, _, r₂.lockFile_eq_ok, fun short texts => ?_⟩
  · rw [lockFile_eq_ok, lockFile_eq_ok] at same
    exact Lock.ofResolution_injective (Lock.toBytes_injective (Except.ok.inj same))
  · have read : Lock.ofBytes r₂.lockBytes = .ok (Lock.ofResolution r₂) :=
      Lock.ofBytes_toBytes_of_le texts short
    have agree : Lock.ofResolution r₂ = Lock.ofResolution r₁ ↔ r₁ = r₂ :=
      ⟨fun same => (Lock.ofResolution_injective same).symm, fun same => same ▸ rfl⟩
    rw [isLockedBy, read]
    change Except.ok (decide (Lock.ofResolution r₂ = Lock.ofResolution r₁)) = _
    rw [decide_eq_decide.2 agree]

/-- A resolution in which one option was removed for a given cause. -/
def sample (cause : Cause) : Resolution where
  platform := ⟨.windows, .msvc, .x86_64⟩
  linkage := .shared
  config := ⟨.ofList [("fPIC", .absent cause), ("shared", .present (.flag true))]⟩
  pins := ⟨⟨[("zlib", ⟨"zlib", "1.2.13"⟩)], by decide⟩, by decide⟩
  table := .ofList [("backend", .text "gl")]

/-- A lockfile tells resolutions apart that differ only in the cause of a removal. -/
theorem lockfile_pins_one_cause :
    let locked := sample (.optionRule "remove fPIC when shared=true")
    let other := sample (.platformRule "remove fPIC when os=windows")
    (∀ list, (Lock.ofResolution locked).count list ≤ 100000) ∧
      (∀ s ∈ (Lock.ofResolution locked).texts, Text.Fits s) ∧
      ∃ bytes, locked.lockFile = .ok bytes ∧
        locked.isLockedBy bytes = .ok true ∧ other.isLockedBy bytes = .ok false := by
  intro locked other
  have short (list : LockList) : (Lock.ofResolution locked).count list ≤ 100000 := by
    cases list <;> decide
  have texts : ∀ s ∈ (Lock.ofResolution locked).texts, Text.Fits s := by
    unfold Text.Fits
    decide
  obtain ⟨-, bytes, written, same⟩ := lockfile_pins_one locked locked
  obtain ⟨-, bytes', written', differs⟩ := lockfile_pins_one other locked
  cases Except.ok.inj (written.symm.trans written')
  exact ⟨short, texts, bytes, written, same short texts, differs short texts⟩

end Resolution

end PackageConfig
