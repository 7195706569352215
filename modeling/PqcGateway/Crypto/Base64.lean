import PqcGateway.Machinery.Text

/-!
# Crypto/Base64 — bytes as text

The `base64` crate's engines are parameters: `Base64` has the two calls made on one, and
`Base64.Lawful` what both alphabets promise.

* `Base64.Lawful.encode_injective` — different bytes have different texts.
-/

namespace PqcGateway

/-- An engine of the `base64` crate.  A decoder's error carries nothing the gateway reads. -/
structure Base64 where
  encode : List UInt8 → String
  decode : String → Option (List UInt8)

/-- What was encoded decodes, and the alphabet has no dot. -/
structure Base64.Lawful (B : Base64) : Prop where
  decode_encode : ∀ bytes, B.decode (B.encode bytes) = some bytes
  dot_notMem_encode : ∀ bytes, '.' ∉ (B.encode bytes).toList

/-- **Text of different bytes differs.** -/
theorem Base64.Lawful.encode_injective {B : Base64} (hB : B.Lawful) :
    Function.Injective B.encode := by
  intro a b h
  have hdecode := hB.decode_encode a
  rw [h, hB.decode_encode] at hdecode
  exact (Option.some.inj hdecode).symm

/-! ## An engine to compute with -/

/-- One character for each byte, from U+0100 on. -/
def wideChar (b : UInt8) : Char := Char.ofNat (256 + b.toNat)

theorem toNat_wideChar (b : UInt8) : (wideChar b).toNat = 256 + b.toNat := by
  have hlt := b.toNat_lt
  have hvalid : (256 + b.toNat).isValidChar := .inl (by omega)
  rw [wideChar, Char.ofNat, dif_pos hvalid]
  rfl

/-- The engine with 256 letters. -/
def wideBase64 : Base64 where
  encode bytes := String.ofList (bytes.map wideChar)
  decode text := some (text.toList.map fun c => UInt8.ofNat (c.toNat - 256))

theorem lawful_wideBase64 : wideBase64.Lawful where
  decode_encode bytes := by
    simp only [wideBase64, String.toList_ofList, List.map_map]
    congr 1
    refine List.map_id'' (fun b => ?_) bytes
    rw [Function.comp_apply, toNat_wideChar, Nat.add_sub_cancel_left, UInt8.ofNat_toNat]
  dot_notMem_encode bytes hmem := by
    rw [wideBase64, String.toList_ofList] at hmem
    obtain ⟨b, -, hb⟩ := List.mem_map.mp hmem
    have := congrArg Char.toNat hb
    rw [toNat_wideChar, show '.'.toNat = 46 from rfl] at this
    omega

end PqcGateway
