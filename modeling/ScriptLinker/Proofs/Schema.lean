import ScriptLinker.Proofs.Compilations
import ScriptLinker.Proofs.Lossy
/-!
# What a revision carries

Every revision only adds fields. `Stencil.Parts.upTo` says what is left of a front end's
answer when the fields that a revision does not have yet are put back to their defaults.
The reader takes the older answer for that one under today's revision, and so does a
compilation, so a newer field cannot matter, not even when it is out of range.
-/

namespace ScriptLinker

namespace Revision

theorem ofNumber?_eq_ok_iff (number : UInt32) (revision : Revision) :
    ofNumber? number = .ok revision ↔ revision.number = number := by
  constructor
  · intro h
    unfold ofNumber? at h
    split at h <;> cases h
    all_goals exact UInt32.toNat_inj.1 (Eq.symm ‹_›)
  · rintro rfl
    exact ofNumber?_number revision

theorem number_injective : Function.Injective number := by
  intro first second h
  cases first <;> cases second <;> first | rfl | cases h

/-- The revisions are numbered from 1 to 5. -/
theorem exists_number_iff (number : UInt32) :
    (∃ revision : Revision, revision.number = number) ↔ 1 ≤ number ∧ number ≤ 5 := by
  constructor
  · rintro ⟨revision, rfl⟩
    cases revision <;> decide
  · rintro ⟨hfirst, hlast⟩
    rw [UInt32.le_iff_toNat_le] at hfirst hlast
    have hcases : number.toNat = 1 ∨ number.toNat = 2 ∨ number.toNat = 3 ∨ number.toNat = 4 ∨
        number.toNat = 5 := by
      simp at hfirst hlast
      omega
    rcases hcases with h | h | h | h | h
    · exact ⟨.bytecode, UInt32.toNat_inj.1 h.symm⟩
    · exact ⟨.strings, UInt32.toNat_inj.1 h.symm⟩
    · exact ⟨.outcome, UInt32.toNat_inj.1 h.symm⟩
    · exact ⟨.metadata, UInt32.toNat_inj.1 h.symm⟩
    · exact ⟨.flags, UInt32.toNat_inj.1 h.symm⟩

theorem eq_of_ofNumber?_eq_error {number : UInt32} {error : DescriptorError}
    (h : ofNumber? number = .error error) : error = .unsupportedRevision number := by
  unfold ofNumber? at h
  split at h <;> cases h
  rfl

theorem ofNumber?_eq_error_iff (number : UInt32) (error : DescriptorError) :
    ofNumber? number = .error error ↔
      ¬ (1 ≤ number ∧ number ≤ 5) ∧ error = .unsupportedRevision number := by
  rw [← exists_number_iff]
  constructor
  · intro h
    refine ⟨?_, eq_of_ofNumber?_eq_error h⟩
    rintro ⟨revision, rfl⟩
    rw [ofNumber?_number] at h
    cases h
  · rintro ⟨hnone, rfl⟩
    cases h : ofNumber? number with
    | error error => rw [eq_of_ofNumber?_eq_error h]
    | ok revision => exact absurd ⟨revision, (ofNumber?_eq_ok_iff _ _).1 h⟩ hnone

end Revision

namespace Stencil.Parts

/-- The first source position that does not fit 32 bits, and its value. -/
inductive Misfit (parts : Parts) : NarrowField → Nat → Prop where
  | lineno (hline : UInt32.size ≤ parts.lineno) : Misfit parts .lineno parts.lineno
  | column (hline : parts.lineno < UInt32.size) (hcolumn : UInt32.size ≤ parts.column) :
      Misfit parts .column parts.column
  | mainOffset (hline : parts.lineno < UInt32.size) (hcolumn : parts.column < UInt32.size)
      (hmain : UInt32.size ≤ parts.mainOffset) : Misfit parts .mainOffset parts.mainOffset

/-- Why parts cannot be read. -/
inductive Unreadable (parts : Parts) : DescriptorError → Prop where
  | revision (hrevision : ¬ (1 ≤ parts.revision ∧ parts.revision ≤ 5)) :
      Unreadable parts (.unsupportedRevision parts.revision)
  | position {field : NarrowField} {value : Nat} (hfirst : 4 ≤ parts.revision)
      (hlast : parts.revision ≤ 5) (hmisfit : parts.Misfit field value) :
      Unreadable parts (.fieldOutOfRange field value)

/-- The descriptor holds the fields that the revision of the parts carries, and the defaults
of the others. -/
structure ReadsAs (parts : Parts) (descriptor : Descriptor) : Prop where
  revision : descriptor.revision.number = parts.revision
  bytecode : descriptor.bytecode = parts.bytecode
  strings : descriptor.strings = if 2 ≤ parts.revision then parts.strings else []
  error : descriptor.error =
    if 3 ≤ parts.revision then parts.error.map Utf8.decodeLossy else none
  unimplemented : descriptor.unimplemented =
    if 3 ≤ parts.revision then parts.unimplemented else false
  lineno : descriptor.metadata.lineno.toNat = if 4 ≤ parts.revision then parts.lineno else 1
  column : descriptor.metadata.column.toNat = if 4 ≤ parts.revision then parts.column else 0
  mainOffset : descriptor.metadata.mainOffset.toNat =
    if 4 ≤ parts.revision then parts.mainOffset else 0
  layout : descriptor.metadata.layout = if 4 ≤ parts.revision then parts.layout else {}
  flags : descriptor.flags = if 5 ≤ parts.revision then parts.flags else {}

theorem misfit?_eq_some_iff (parts : Parts) (error : DescriptorError) :
    parts.misfit? = some error ↔
      ∃ field value, parts.Misfit field value ∧ error = .fieldOutOfRange field value := by
  unfold misfit?
  constructor
  · intro h
    simp only [List.find?, ← Nat.not_lt] at h
    by_cases hline : parts.lineno < UInt32.size
    · by_cases hcolumn : parts.column < UInt32.size
      · by_cases hmain : parts.mainOffset < UInt32.size
        · simp [hline, hcolumn, hmain] at h
        · exact ⟨_, _, .mainOffset hline hcolumn (Nat.not_lt.1 hmain), by
            simpa [hline, hcolumn, hmain, eq_comm] using h⟩
      · exact ⟨_, _, .column hline (Nat.not_lt.1 hcolumn), by
          simpa [hline, hcolumn, eq_comm] using h⟩
    · exact ⟨_, _, .lineno (Nat.not_lt.1 hline), by simpa [hline, eq_comm] using h⟩
  · rintro ⟨field, value, hmisfit, rfl⟩
    cases hmisfit with
    | lineno hline => simp [hline]
    | column hline hcolumn => simp [Nat.not_le.2 hline, hcolumn]
    | mainOffset hline hcolumn hmain =>
        simp [Nat.not_le.2 hline, Nat.not_le.2 hcolumn, hmain]

theorem misfit?_eq_none_iff (parts : Parts) :
    parts.misfit? = none ↔ parts.lineno < UInt32.size ∧ parts.column < UInt32.size ∧
      parts.mainOffset < UInt32.size := by
  simp [misfit?, List.find?_eq_none]

/-- With a revision that there is, only a source position makes parts unreadable. -/
theorem unreadable_iff_of_number {parts : Parts} {revision : Revision}
    (h : revision.number = parts.revision) (error : DescriptorError) :
    parts.Unreadable error ↔ revision.hasMetadata ∧ parts.misfit? = some error := by
  have hsupported := (Revision.exists_number_iff _).1 ⟨revision, h⟩
  rw [misfit?_eq_some_iff, Revision.hasMetadata, h, decide_eq_true_iff]
  constructor
  · rintro (hrevision | ⟨hfirst, -, hmisfit⟩)
    · exact absurd hsupported hrevision
    · exact ⟨hfirst, _, _, hmisfit, rfl⟩
  · rintro ⟨hfirst, field, value, hmisfit, rfl⟩
    exact .position hfirst hsupported.2 hmisfit

theorem ofStencil?_eq_error_iff (parts : Parts) (error : DescriptorError) :
    Descriptor.ofStencil? parts.toStencil = .error error ↔ parts.Unreadable error := by
  rw [ofStencil?_toStencil]
  cases hrevision : Revision.ofNumber? parts.revision with
  | error cause =>
      obtain ⟨hout, rfl⟩ := (Revision.ofNumber?_eq_error_iff _ _).1 hrevision
      constructor
      · rintro ⟨⟩
        exact .revision hout
      · rintro (_ | ⟨hfirst, hlast, _⟩)
        · rfl
        · exact absurd ⟨UInt32.le_trans (show (1 : UInt32) ≤ 4 by decide) hfirst, hlast⟩ hout
  | ok revision =>
      have hnumber := (Revision.ofNumber?_eq_ok_iff _ _).1 hrevision
      rw [unreadable_iff_of_number hnumber]
      dsimp only
      cases revision.hasMetadata with
      | false => simp
      | true => cases parts.misfit? <;> simp

/-- Source positions that fit are read as the numbers that they are. -/
theorem metadata_describe {parts : Parts} {revision : Revision}
    (hnumber : revision.number = parts.revision)
    (hfits : revision.hasMetadata → parts.misfit? = none) :
    let read := (parts.describe revision).metadata
    read.lineno.toNat = (if 4 ≤ parts.revision then parts.lineno else 1) ∧
      read.column.toNat = (if 4 ≤ parts.revision then parts.column else 0) ∧
      read.mainOffset.toNat = (if 4 ≤ parts.revision then parts.mainOffset else 0) ∧
      read.layout = if 4 ≤ parts.revision then parts.layout else {} := by
  simp only [misfit?_eq_none_iff, Revision.hasMetadata, hnumber, decide_eq_true_iff] at hfits
  simp only [describe, Revision.hasMetadata, hnumber, decide_eq_true_iff]
  split_ifs with hfirst
  · obtain ⟨hline, hcolumn, hmain⟩ := hfits hfirst
    exact ⟨UInt32.toNat_ofNat_of_lt' hline, UInt32.toNat_ofNat_of_lt' hcolumn,
      UInt32.toNat_ofNat_of_lt' hmain, rfl⟩
  · exact ⟨rfl, rfl, rfl, rfl⟩

theorem readsAs_of_ofStencil? {parts : Parts} {descriptor : Descriptor}
    (h : Descriptor.ofStencil? parts.toStencil = .ok descriptor) : parts.ReadsAs descriptor := by
  rw [ofStencil?_toStencil] at h
  cases hrevision : Revision.ofNumber? parts.revision with
  | error error => simp [hrevision] at h
  | ok revision =>
      have hnumber := (Revision.ofNumber?_eq_ok_iff _ _).1 hrevision
      rw [hrevision] at h
      dsimp only at h
      cases hmisfit : if revision.hasMetadata then parts.misfit? else none with
      | some error => simp [hmisfit] at h
      | none =>
          rw [hmisfit] at h
          obtain rfl := Except.ok.inj h
          obtain ⟨hline, hcolumn, hmain, hlayout⟩ := metadata_describe hnumber fun hmetadata => by
            rwa [if_pos hmetadata] at hmisfit
          refine ⟨hnumber, rfl, ?hstrings, ?hmessage, ?hdeclined, hline, hcolumn, hmain, hlayout,
            ?hflags⟩
          case hstrings => simp only [describe, Revision.hasStrings, hnumber, decide_eq_true_iff]
          case hmessage =>
            simp only [Revision.hasOutcome, hnumber, decide_eq_true_iff]
            split_ifs <;> rfl
          case hdeclined =>
            simp only [Revision.hasOutcome, hnumber]
            split_ifs with hthird <;> simp [hthird]
          case hflags => simp only [describe, Revision.hasFlags, hnumber, decide_eq_true_iff]

/-- At most one descriptor holds the fields that parts carry. -/
theorem ReadsAs.unique {parts : Parts} {first second : Descriptor} (hfirst : parts.ReadsAs first)
    (hsecond : parts.ReadsAs second) : first = second := by
  have hrevision : first.revision = second.revision :=
    Revision.number_injective (hfirst.revision.trans hsecond.revision.symm)
  have hmetadata : first.metadata = second.metadata := by
    change ScriptMetadata.mk first.metadata.lineno first.metadata.column
      first.metadata.mainOffset first.metadata.layout = second.metadata
    rw [UInt32.toNat_inj.1 (hfirst.lineno.trans hsecond.lineno.symm),
      UInt32.toNat_inj.1 (hfirst.column.trans hsecond.column.symm),
      UInt32.toNat_inj.1 (hfirst.mainOffset.trans hsecond.mainOffset.symm),
      hfirst.layout.trans hsecond.layout.symm]
  change Descriptor.mk first.revision first.bytecode first.strings first.error
    first.unimplemented first.metadata first.flags = second
  rw [hrevision, hfirst.bytecode.trans hsecond.bytecode.symm,
    hfirst.strings.trans hsecond.strings.symm, hfirst.error.trans hsecond.error.symm,
    hfirst.unimplemented.trans hsecond.unimplemented.symm, hmetadata,
    hfirst.flags.trans hsecond.flags.symm]

theorem ofStencil?_eq_ok_iff (parts : Parts) (descriptor : Descriptor) :
    Descriptor.ofStencil? parts.toStencil = .ok descriptor ↔
      (∀ error, ¬ parts.Unreadable error) ∧ parts.ReadsAs descriptor := by
  constructor
  · intro h
    refine ⟨fun error herror => ?_, readsAs_of_ofStencil? h⟩
    rw [← ofStencil?_eq_error_iff, h] at herror
    cases herror
  · rintro ⟨hreadable, hreads⟩
    cases h : Descriptor.ofStencil? parts.toStencil with
    | error error => exact absurd ((ofStencil?_eq_error_iff _ _).1 h) (hreadable error)
    | ok read => rw [(readsAs_of_ofStencil? h).unique hreads]

/-- The parts under another revision, with every field as it is. -/
def under (revision : Revision) (parts : Parts) : Parts :=
  { parts with revision := revision.number }

/-- The parts under today's revision, where the fields that are newer than `revision` have
their defaults. -/
def upTo : Revision → Parts → Parts
  | .bytecode, parts => { bytecode := parts.bytecode }
  | .strings, parts => { bytecode := parts.bytecode, strings := parts.strings }
  | .outcome, parts =>
    { bytecode := parts.bytecode
      strings := parts.strings
      error := parts.error
      unimplemented := parts.unimplemented }
  | .metadata, parts =>
    { bytecode := parts.bytecode
      strings := parts.strings
      error := parts.error
      unimplemented := parts.unimplemented
      lineno := parts.lineno
      column := parts.column
      mainOffset := parts.mainOffset
      layout := parts.layout }
  | .flags, parts => { parts with revision := currentRevision }

theorem ofNumber?_under (revision : Revision) (parts : Parts) :
    Revision.ofNumber? (parts.under revision).revision = .ok revision :=
  Revision.ofNumber?_number revision

theorem ofNumber?_upTo (revision : Revision) (parts : Parts) :
    Revision.ofNumber? (parts.upTo revision).revision = .ok .flags := by
  cases revision <;> rfl

/-- Under its revision, what parts carry is what is left of them under today's. -/
theorem carried_under (revision : Revision) (parts : Parts) :
    (parts.under revision).carried = (parts.upTo revision).under revision := by
  unfold carried
  rw [ofNumber?_under]
  cases revision <;> rfl

theorem ofStencil?_carried (parts : Parts) :
    Descriptor.ofStencil? parts.carried.toStencil = Descriptor.ofStencil? parts.toStencil := by
  rw [ofStencil?_toStencil, ofStencil?_toStencil, revision_carried]
  unfold carried
  cases Revision.ofNumber? parts.revision with
  | error error => rfl
  | ok revision => cases revision <;> rfl

/-- Under today's revision the reading is the same but for the revision. -/
theorem ofStencil?_upTo (revision : Revision) (parts : Parts) :
    Descriptor.ofStencil? (parts.upTo revision).toStencil =
      (Descriptor.ofStencil? (parts.under revision).toStencil).map
        fun descriptor => { descriptor with revision := .flags } := by
  rw [ofStencil?_toStencil, ofStencil?_toStencil, ofNumber?_under, ofNumber?_upTo]
  have hmisfit : (if Revision.flags.hasMetadata then (parts.upTo revision).misfit? else none) =
      if revision.hasMetadata then (parts.under revision).misfit? else none := by
    cases revision <;> rfl
  dsimp only
  rw [hmisfit]
  cases if revision.hasMetadata then (parts.under revision).misfit? else none with
  | some error => rfl
  | none => cases revision <;> rfl

end Stencil.Parts

/-- What is done with a descriptor does not depend on the revision it was read under. -/
theorem Context.carryOut_withRevision (descriptor : Descriptor) (revision : Revision)
    (sourceLength : Nat) :
    carryOut { descriptor with revision } sourceLength = carryOut descriptor sourceLength := rfl

/-- No compilation tells one stencil from the other, by its result or by the context it
leaves. -/
def Stencil.Alike (first second : Stencil) : Prop :=
  ∀ (source : Bytes) (desk : Desk) (bridge other : Bridge),
    bridge.frontEnd.compile source desk.context.options = first →
    other.frontEnd.compile source desk.context.options = second →
    let ended := (Desk.compile bridge source).ending desk
    let otherEnded := (Desk.compile other source).ending desk
    ended.1 = otherEnded.1 ∧ ended.2.context = otherEnded.2.context

/-- Stencils are alike when what is read from them differs in nothing that is used. -/
theorem Stencil.alike_of_read {first second : Stencil} (change : Descriptor → Descriptor)
    (hchange : ∀ descriptor sourceLength,
      Context.carryOut (change descriptor) sourceLength =
        Context.carryOut descriptor sourceLength)
    (h : Descriptor.ofStencil? second = (Descriptor.ofStencil? first).map change) :
    first.Alike second := by
  rintro source desk bridge other rfl rfl
  simp only [Desk.ending_compile]
  rw [h]
  cases Descriptor.ofStencil? (bridge.frontEnd.compile source desk.context.options) with
  | error error => exact ⟨rfl, rfl⟩
  | ok descriptor =>
      dsimp only [Except.map]
      rw [hchange]
      exact ⟨rfl, rfl⟩

/-- Parts are read unless their revision is not one from 1 to 5 or a source position that it
carries does not fit 32 bits, and what is read is the fields that the revision carries, the
others having their defaults. A message is read as it is, but for what is not UTF-8 in it.
Under any revision, reading and compiling go as under today's once the newer fields have
their defaults, and so do not depend on them. -/
theorem Stencil.Parts.revision_exact (parts : Parts) :
    (∀ error, Descriptor.ofStencil? parts.toStencil = .error error ↔ parts.Unreadable error) ∧
      (∀ descriptor, Descriptor.ofStencil? parts.toStencil = .ok descriptor ↔
        (∀ error, ¬ parts.Unreadable error) ∧ parts.ReadsAs descriptor) ∧
      (∀ bytes text, Utf8.Lossy bytes text.toList ↔ Utf8.decodeLossy bytes = text) ∧
      ∀ revision : Revision,
        let older := (parts.under revision).toStencil
        let today := (parts.upTo revision).toStencil
        Descriptor.ofStencil? today = (Descriptor.ofStencil? older).map
            (fun descriptor => { descriptor with revision := .flags }) ∧
          older.Alike today ∧
          ∀ other : Parts, other.upTo revision = parts.upTo revision →
            Descriptor.ofStencil? (other.under revision).toStencil =
                Descriptor.ofStencil? older ∧
              (other.under revision).toStencil.Alike older := by
  refine ⟨parts.ofStencil?_eq_error_iff, parts.ofStencil?_eq_ok_iff,
    Utf8.lossy_iff, fun revision => ?_⟩
  refine ⟨parts.ofStencil?_upTo revision, ?_, fun other hother => ?_⟩
  · exact Stencil.alike_of_read _
      (fun descriptor => Context.carryOut_withRevision descriptor .flags)
      (parts.ofStencil?_upTo revision)
  · have hread : Descriptor.ofStencil? (other.under revision).toStencil =
        Descriptor.ofStencil? (parts.under revision).toStencil := by
      rw [← ofStencil?_carried, carried_under, hother, ← carried_under, ofStencil?_carried]
    refine ⟨hread, Stencil.alike_of_read id (fun _ _ => rfl) ?_⟩
    rw [hread]
    exact (id_map (Descriptor.ofStencil? (parts.under revision).toStencil)).symm

/-- The second revision has the strings. The message, the line and the flags are newer. -/
example :
    Descriptor.ofStencil? (Stencil.Parts.toStencil
      { revision := 2, bytecode := [153], strings := [[120], []], error := some []
        lineno := UInt32.size, flags := { strict := true } }) =
    .ok { revision := .strings, bytecode := [153], strings := [[120], []] } := rfl

end ScriptLinker
