import AttrGrammar.Proofs.Literal.RoundTrip

/-!
Contract: a byte string that was made from bytes gives them back.

Owns:
- bytes as characters, each of which is read as it was written;
- that the text of a byte string is one token, which denotes the bytes that it was made from.

A byte is below `0x100`, so an escape of it by number has two digits, and its reader takes both.
-/

namespace AttrGrammar

namespace CodePoint

theorem mapM_toByte? (bs : List UInt8) : (bs.map ofByte).mapM toByte? = some bs := by
  induction bs with
  | nil => rfl
  | cons b bs inductionHypothesis =>
      rw [List.map_cons, List.mapM_cons, toByte?_ofByte, inductionHypothesis]
      rfl

end CodePoint

namespace Literal

theorem isFaithful_ofUInt8 (b : UInt8) : Escape.IsFaithful (Char.ofUInt8 b) :=
  .inr b.toNat_lt

theorem map_ofByte (bs : List UInt8) :
    bs.map CodePoint.ofByte = (bs.map Char.ofUInt8).map CodePoint.ofChar := by
  rw [List.map_map]
  rfl

/-- Every byte is read as it was written, whatever bytes stand beside it. -/
theorem decode_encode_bytes (bs : List UInt8) :
    Escape.decode ((bs.map CodePoint.ofByte).flatMap Escape.encode) = .ok (bs.map CodePoint.ofByte) := by
  rw [map_ofByte]
  obtain ⟨text, isRead, ⟨-, rfl⟩ | ⟨⟨c, member, unfaithful⟩, -⟩⟩ := Escape.exists_decode_encode (bs.map Char.ofUInt8)
  · exact isRead
  · obtain ⟨b, -, rfl⟩ := List.mem_map.1 member
    exact absurd (isFaithful_ofUInt8 b) unfaithful

theorem isOneToken_byteStr (bs : List UInt8) : (plain (.byteStr bs)).IsOneToken := by
  have closes := Lexer.quotedLength?_encode (show '"' ∈ ['"', '\''] by decide) (bs.map Char.ofUInt8)
  rw [← map_ofByte] at closes
  exact isOneToken_of_scan rfl rfl (Lexer.ScanRule.byteStr closes).scan_eq

theorem reread_byteStr (bs : List UInt8) : (plain (.byteStr bs)).reread = .ok (plain (.byteStr bs)) := by
  generalize isText : (plain (.byteStr bs)).token.text = text
  have isBody : decodeBody 2 text = .ok (bs.map CodePoint.ofByte) := by
    rw [← isText]
    exact decodeBody_quote (n := 2) rfl (decode_encode_bytes bs)
  have areBytes : toBytes text (bs.map CodePoint.ofByte) = .ok bs := by
    rw [toBytes, CodePoint.mapM_toByte?]
  rw [reread, isText]
  change (decodeBody 2 text >>= fun body => toBytes text body >>= fun bytes => pure (plain (.byteStr bytes))) = _
  rw [isBody]
  change (toBytes text (bs.map CodePoint.ofByte) >>= fun bytes => pure (plain (.byteStr bytes))) = _
  rw [areBytes]
  rfl

/-- The print of a byte string, whatever its bytes are, is one token of a source, and this token denotes the bytes. -/
theorem byteStr_round_trip (bs : List UInt8) :
    tokenize (Tree.printAll [.token (plain (.byteStr bs)).token]) =
        .ok [⟨.byteStr, (plain (.byteStr bs)).write, .start, false⟩,
          .atEnd (Position.start.after (plain (.byteStr bs)).write.toList)] ∧
      decode .byteStr (plain (.byteStr bs)).write = .ok ⟨.byteStr bs, ""⟩ :=
  ⟨isOneToken_byteStr bs, reread_byteStr bs⟩

end Literal

end AttrGrammar
