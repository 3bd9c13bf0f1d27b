-- SUMMARY: The protocol lists that Java encodes: which arrays of strings the wire format gives back.
import Tcnative.Protocol.Config

/-!
# The wire format of a protocol list

`protocolsToWireFormat` keeps strings of up to 65535 bytes, but a length byte
tells lengths up to 255 only. A longer string that is kept shifts every entry
behind it.
-/

namespace Protocol
open CMem LengthPrefixed

/-- The ASCII string with these bytes. -/
def asciiString (bytes : List Byte) : JavaString := bytes.map UInt8.toUInt16

/-- `protocolsToWireFormat` writes the string. -/
def Keeps (p : JavaString) : Prop := (getBytesAscii p).length ≤ maxAlpnNpnProtoSize

instance (p : JavaString) : Decidable (Keeps p) := inferInstanceAs (Decidable (_ ≤ _))

/-- Some bytes decode to a list that has the string. -/
def Representable (p : JavaString) : Prop :=
  ∃ mem entries, decode mem = some entries ∧ getBytesAscii p ∈ entries

/-- The wire format decodes to the strings that the encoder keeps, in order, and
no string that it drops has a representation. -/
def RoundTrips (protocols : List JavaString) : Prop :=
  (decode (protocolsToWireFormat protocols)).map (·.map asciiString) =
      some (protocols.filter fun p => Keeps p) ∧
    ∀ p ∈ protocols, ¬ Keeps p → ¬ Representable p

/-- The string is too long for its length byte, but is kept. -/
def Overlong (p : JavaString) : Prop := 256 ≤ p.length ∧ p.length ≤ maxAlpnNpnProtoSize

instance (p : JavaString) : Decidable (Overlong p) := inferInstanceAs (Decidable (_ ∧ _))

/-! ## Strings and their bytes -/

section
variable {p : JavaString}

theorem asciiString_getBytesAscii (h : ∀ c ∈ p, c < 128) : asciiString (getBytesAscii p) = p := by
  have hchar : ∀ c ∈ p, c.toUInt8.toUInt16 = c := by
    intro c hc
    have hlt : c.toNat < 128 := UInt16.lt_iff_toNat_lt.mp (h c hc)
    refine UInt16.toNat_inj.mp ?_
    rw [UInt8.toNat_toUInt16, UInt16.toNat_toUInt8]
    exact Nat.mod_eq_of_lt (by omega)
  rw [getBytesAscii_ascii h, asciiString, List.map_map]
  exact (List.map_congr_left hchar).trans (List.map_id p)

theorem length_getBytesAscii (h : ∀ c ∈ p, c < 128) : (getBytesAscii p).length = p.length := by
  rw [getBytesAscii_ascii h, List.length_map]

theorem keeps_iff (h : ∀ c ∈ p, c < 128) : Keeps p ↔ p.length ≤ maxAlpnNpnProtoSize := by
  rw [Keeps, length_getBytesAscii h]

/-- A string longer than 255 characters is not representable. -/
theorem not_representable (h : ∀ c ∈ p, c < 128) (hlong : 256 ≤ p.length) : ¬ Representable p := by
  rintro ⟨mem, entries, hdecode, hmem⟩
  have hlt := decode_length_lt hdecode _ hmem
  rw [length_getBytesAscii h] at hlt
  omega

end

/-! ## Encoding one string -/

theorem protocolsToWireFormat_drop {p : JavaString} (h : ¬ Keeps p) (ps : List JavaString) :
    protocolsToWireFormat (p :: ps) = protocolsToWireFormat ps := by
  have hdrop : ¬ (getBytesAscii p).length ≤ maxAlpnNpnProtoSize := h
  simp only [protocolsToWireFormat, List.flatMap_cons, if_neg hdrop, List.nil_append]

theorem protocolsToWireFormat_keep {p : JavaString} (hlt : (getBytesAscii p).length < 256)
    (ps : List JavaString) :
    protocolsToWireFormat (p :: ps) =
      Entry.encode ⟨getBytesAscii p, hlt⟩ ++ protocolsToWireFormat ps := by
  have hkeep : (getBytesAscii p).length ≤ maxAlpnNpnProtoSize := by
    simp only [maxAlpnNpnProtoSize]
    omega
  simp only [protocolsToWireFormat, List.flatMap_cons, if_pos hkeep]
  rfl

/-! ## The round trip -/

/-- The kept strings come back if none of them is too long for its length byte. -/
theorem decode_protocolsToWireFormat {ps : List JavaString} (hascii : ∀ p ∈ ps, ∀ c ∈ p, c < 128)
    (h : ∀ p ∈ ps, ¬ Overlong p) :
    (decode (protocolsToWireFormat ps)).map (·.map asciiString) =
      some (ps.filter fun p => Keeps p) := by
  induction ps with
  | nil => simp [protocolsToWireFormat]
  | cons p ps ih =>
    have hp := hascii p List.mem_cons_self
    have htail := ih (fun q hq => hascii q (List.mem_cons_of_mem p hq))
      fun q hq => h q (List.mem_cons_of_mem p hq)
    by_cases hkeep : Keeps p
    · have hlt : (getBytesAscii p).length < 256 := by
        rw [length_getBytesAscii hp]
        by_contra hlong
        exact h p List.mem_cons_self ⟨by omega, (keeps_iff hp).mp hkeep⟩
      rw [protocolsToWireFormat_keep hlt, decode_entry, Option.map_map,
        List.filter_cons_of_pos (by simpa using hkeep)]
      obtain ⟨entries, hentries, hstrings⟩ := Option.map_eq_some_iff.mp htail
      rw [hentries, ← hstrings]
      simp only [Option.map_some, Function.comp_apply, List.map_cons,
        asciiString_getBytesAscii hp]
    · rw [protocolsToWireFormat_drop hkeep, List.filter_cons_of_neg (by simpa using hkeep)]
      exact htail

/-- A string that is kept but too long does not come back. -/
theorem not_decode_overlong {ps : List JavaString} {p : JavaString} (hp : p ∈ ps)
    (hascii : ∀ c ∈ p, c < 128) (hlong : Overlong p) :
    (decode (protocolsToWireFormat ps)).map (·.map asciiString) ≠
      some (ps.filter fun p => Keeps p) := by
  intro h
  obtain ⟨entries, hdecode, hstrings⟩ := Option.map_eq_some_iff.mp h
  have hmem : p ∈ entries.map asciiString := by
    rw [hstrings, List.mem_filter]
    exact ⟨hp, by simpa using (keeps_iff hascii).mpr hlong.2⟩
  obtain ⟨bytes, hbytes, rfl⟩ := List.mem_map.mp hmem
  have hlt := decode_length_lt hdecode bytes hbytes
  have hle := hlong.1
  rw [asciiString, List.length_map] at hle
  omega

/-- An array of ASCII strings survives the round trip if and only if no string
of it has 256 to 65535 characters. -/
theorem protocolsToWireFormat_roundTrips_iff {protocols : List JavaString}
    (hascii : ∀ p ∈ protocols, ∀ c ∈ p, c < 128) :
    RoundTrips protocols ↔ ∀ p ∈ protocols, ¬ (256 ≤ p.length ∧ p.length ≤ 65535) := by
  constructor
  · rintro ⟨hdecode, -⟩ p hp hlong
    exact not_decode_overlong hp (hascii p hp) hlong hdecode
  · intro h
    refine ⟨decode_protocolsToWireFormat hascii h, fun p hp hdrop => ?_⟩
    have hlong : ¬ p.length ≤ maxAlpnNpnProtoSize := mt (keeps_iff (hascii p hp)).mpr hdrop
    refine not_representable (hascii p hp) ?_
    simp only [maxAlpnNpnProtoSize] at hlong
    omega

/-- Two names and an empty string. -/
theorem protocolsToWireFormat_roundTrips_short : RoundTrips [h2.chars, [], h3.chars] := by
  refine (protocolsToWireFormat_roundTrips_iff ?_).mpr ?_
  · simp [h2, h3]
  · simp [h2, h3]

/-- One string of 256 characters. Its length byte is zero. -/
theorem protocolsToWireFormat_overlong : ¬ RoundTrips [List.replicate 256 97] := by
  rintro ⟨hdecode, -⟩
  refine not_decode_overlong (List.mem_singleton_self _) ?_ ?_ hdecode
  · intro c hc
    rw [List.eq_of_mem_replicate hc]
    decide
  · rw [Overlong, List.length_replicate]
    decide

end Protocol
