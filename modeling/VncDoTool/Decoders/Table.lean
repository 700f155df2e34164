import VncDoTool.Decoders.Hextile
import VncDoTool.Decoders.Simple
import VncDoTool.Decoders.Tight
import VncDoTool.Decoders.ZRLE

/-!
# The table of decoders

`DECODERS` and `for_connection` of `decoders/__init__.py`.

* `Decoders.forConnection`: the decoders of a connection, by encoding.
* `Decoders.reads_forConnection`: none of them looks at what is buffered.
* `Decoders.encodingsOffered`: what the decoders learn of the encodings the client asked for.
-/

namespace VncDoTool

namespace Decoders

open RFBClient

variable {codecs : Codecs} {S : Type} (callback : RFBClient.Callback → Py (DAttrs codecs S) Unit)

/-- `DECODERS`. -/
def decoders : List (ℤ × Decoder callback) :=
  [(Encoding.raw, rawDecoder callback), (Encoding.copyRectangle, copyRectDecoder callback),
    (Encoding.rre, rreDecoder callback), (Encoding.corre, corReDecoder callback),
    (Encoding.hextile, hextileDecoder callback), (Encoding.zrle, zrleDecoder callback),
    (Encoding.tight, tightDecoder callback), (Encoding.pseudoCursor, cursorDecoder callback),
    (Encoding.pseudoDesktopSize, desktopSizeDecoder callback),
    (Encoding.pseudoPointerPos, pointerPosDecoder callback),
    (Encoding.pseudoQemuExtendedKeyEvent, qemuExtendedKeyDecoder callback)]

/-- `for_connection`, looked up. What the decoders keep is among the attributes of the client. -/
def forConnection (encoding : ℤ) : Option (Decoder callback) := (decoders callback).lookup encoding

/-- `JPEG_QUALITY_ENCODINGS`. -/
def jpegQualityEncodings : List ℤ := (List.range 10).map fun level => -32 + level

/-- `encodingsOffered` of every decoder; only Tight's does anything. -/
def encodingsOffered (encodings : List ℤ) (d : Decoding codecs) : Decoding codecs :=
  { d with jpegOffered := encodings.any fun encoding => encoding ∈ jpegQualityEncodings }

theorem mem_of_lookup {α : Type} {table : List (ℤ × α)} {key : ℤ} {value : α}
    (h : table.lookup key = some value) : ∃ k, (k, value) ∈ table := by
  induction table with
  | nil => exact absurd h (by simp)
  | cons entry table ih =>
    obtain ⟨k, v⟩ := entry
    rw [List.lookup_cons] at h
    split at h
    · obtain rfl := Option.some.inj h
      exact ⟨k, List.mem_cons_self⟩
    · obtain ⟨k', hmem⟩ := ih h
      exact ⟨k', List.mem_cons_of_mem _ hmem⟩

/-- Every decoder only reads. -/
theorem reads_forConnection {encoding : ℤ} {decoder : Decoder callback}
    (h : forConnection callback encoding = some decoder) (rect : Rect) (pixelFormat : PixelFormat)
    (a : DAttrs codecs S) : Reads ((decoder.decode rect pixelFormat).run a) := by
  obtain ⟨k, hmem⟩ := mem_of_lookup h
  simp only [decoders, List.mem_cons, Prod.mk.injEq, List.not_mem_nil, or_false] at hmem
  rcases hmem with ⟨-, rfl⟩ | ⟨-, rfl⟩ | ⟨-, rfl⟩ | ⟨-, rfl⟩ | ⟨-, rfl⟩ | ⟨-, rfl⟩ | ⟨-, rfl⟩ |
    ⟨-, rfl⟩ | ⟨-, rfl⟩ | ⟨-, rfl⟩ | ⟨-, rfl⟩
  · exact reads_ofHonours callback honours_rawDecode rect pixelFormat a
  · exact reads_clientDecoder callback honours_copyRectDecodeForClient rect pixelFormat a
  · exact reads_ofHonours callback (honours_pixelDecode (honours_rreDecodePixels rreCoords)) rect
      pixelFormat a
  · exact reads_ofHonours callback (honours_pixelDecode (honours_rreDecodePixels corReCoords)) rect
      pixelFormat a
  · exact reads_ofHonours callback (honours_pixelDecode honours_hextileDecodePixels) rect
      pixelFormat a
  · exact reads_ofHonours callback (honours_pixelDecode honours_zrleDecodePixels) rect
      pixelFormat a
  · exact reads_ofHonours callback (honours_wholeRectDecode honours_tightDecodeRect) rect
      pixelFormat a
  · exact reads_clientDecoder callback honours_cursorDecodeForClient rect pixelFormat a
  · exact reads_controlDecoder callback (fun _ => rfl) rect pixelFormat a
  · exact reads_controlDecoder callback (fun _ => rfl) rect pixelFormat a
  · exact reads_ofHonours callback honours_qemuExtendedKeyDecode rect pixelFormat a

end Decoders

end VncDoTool
