import VncDoTool.Decoders.Table

/-!
# What rectangles come to

What each decoder of the table leaves for the pump: pixels to paste, which count as a screen change, or
nothing but what a method of the client has done, which `ClientDecoder` counts as one and
`ControlDecoder` does not.

* `Decoders.Draws`: the methods decoders call, and whether the rectangle then counts.
* `Decoders.Renders`: what a decoder does over the whole of its run.
* `Decoders.renders_forConnection`: every decoder of the table.
-/

namespace VncDoTool

namespace Decoders

open RFBClient Coroutine

variable {codecs : Codecs} {S : Type}

/-- The methods a decoder has the client paint with, and whether the rectangle counts as a screen
change. -/
inductive Draws (a : DAttrs codecs S) : RFBClient.Callback → Bool → Prop
  /-- The source of a copy lies inside the framebuffer. -/
  | copy (srcx srcy : ℕ) (rect : Rect) (hwidth : srcx + rect.width ≤ a.width)
      (hheight : srcy + rect.height ≤ a.height) : Draws a (.copyRectangle srcx srcy rect) true
  | cursor (rect : Rect) (image mask : Bytes) : Draws a (.updateCursor rect image mask) true
  | pointer (x y : ℕ) : Draws a (.updatePointerPos x y) false
  | desktop (width height : ℕ) : Draws a (.updateDesktopSize width height) false

/-- From `a` on a decoder leaves the client alone, but for a painting method it calls as the last
thing it does. Without such a call the rectangle counts exactly where pixels are left to paste. -/
def Renders (callback : RFBClient.Callback → Py (DAttrs codecs S) Unit) :
    DAttrs codecs S → GenStep (Decoding codecs) S Outcome → Prop
  | a, .done a' outcome =>
    Quiet a a' ∧ outcome.changed = outcome.paste.isSome ∨
      outcome.paste = none ∧ ∃ a₁ method, Quiet a a₁ ∧ Draws a₁ method outcome.changed ∧
        (invoke callback method).run a₁ = .ok () a'
  | a, .failed a' e =>
    Quiet a a' ∨ ∃ a₁ method changed, Quiet a a₁ ∧ Draws a₁ method changed ∧
      (invoke callback method).run a₁ = .error e a'
  | a, .yielded a' _ resume => Quiet a a' ∧ ∀ answer t, Renders callback t (resume answer t)

variable {callback : RFBClient.Callback → Py (DAttrs codecs S) Unit}

theorem Renders.from_earlier {a₀ a : DAttrs codecs S} {x : GenStep (Decoding codecs) S Outcome}
    (hquiet : Quiet a₀ a) (h : Renders callback a x) : Renders callback a₀ x := by
  cases x with
  | done a' outcome =>
    rcases h with ⟨h, hcounts⟩ | ⟨hpaste, a₁, method, h, hdraws, hrun⟩
    · exact .inl ⟨hquiet.trans h, hcounts⟩
    · exact .inr ⟨hpaste, a₁, method, hquiet.trans h, hdraws, hrun⟩
  | failed a' e =>
    rcases h with h | ⟨a₁, method, changed, h, hdraws, hrun⟩
    · exact .inl (hquiet.trans h)
    · exact .inr ⟨a₁, method, changed, hquiet.trans h, hdraws, hrun⟩
  | yielded a' y resume => exact ⟨hquiet.trans h.1, h.2⟩

/-- A decoder that calls nothing. -/
theorem renders_of_honours {a : DAttrs codecs S} {x : GenStep (Decoding codecs) S Outcome}
    (h : x.Honours contract anything a)
    (hends : x.Ends fun outcome => outcome.changed = outcome.paste.isSome) :
    Renders callback a x := by
  have hboth := h.and_ends hends
  clear h hends
  induction x generalizing a with
  | done a' outcome => exact .inl ⟨hboth.1, hboth.2.2⟩
  | failed a' e => exact .inl hboth.1
  | yielded a' y resume ih =>
    exact ⟨hboth.1, fun answer t => ih answer t (hboth.2.2 answer t trivial)⟩

/-- What comes before the last part calls nothing. -/
theorem renders_bind {α : Type} {m : Gen (Decoding codecs) S α}
    {f : α → Gen (Decoding codecs) S Outcome} {a : DAttrs codecs S}
    {Q : DAttrs codecs S → α → Prop} (hm : (m.run a).Honours contract Q a)
    (hf : ∀ v t, Q t v → Renders callback t ((f v).run t)) :
    Renders callback a ((m >>= f).run a) := by
  rw [run_bind]
  revert hm
  generalize hx : m.run a = x
  clear hx
  intro hm
  induction x generalizing a with
  | done t v => exact (hf v t hm.2).from_earlier hm.1
  | failed t e => exact .inl hm.1
  | yielded t y resume ih => exact ⟨hm.1, fun answer s => ih answer s (hm.2.2 answer s trivial)⟩

/-- A painting call is the last thing a decoder does. -/
theorem renders_invoke {a : DAttrs codecs S} {method : RFBClient.Callback} {changed : Bool}
    (hdraws : Draws a method changed) :
    Renders callback a ((do
      Gen.lift (invoke callback method)
      pure { changed := changed } : Gen (Decoding codecs) S Outcome).run a) := by
  rw [run_bind, Gen.run_lift]
  cases hrun : (invoke callback method).run a with
  | ok u a' => exact .inr ⟨rfl, a, method, Quiet.refl a, hdraws, hrun⟩
  | error e a' => exact .inr ⟨a, method, changed, Quiet.refl a, hdraws, hrun⟩

section

variable {rect : Rect} {pixelFormat : PixelFormat} {a : DAttrs codecs S}

theorem ends_rawDecode :
    ((rawDecode rect pixelFormat : Gen (Decoding codecs) S Outcome).run a).Ends
      fun outcome => outcome.changed = outcome.paste.isSome := by
  unfold rawDecode
  apply Step.ends_bind
  intro _ a
  apply Step.ends_bind
  intro data a
  rfl

theorem ends_pixelDecode
    (decodePixels : RectBuffer → PixelFormat → Gen (Decoding codecs) S RectBuffer) :
    ((pixelDecode decodePixels rect pixelFormat).run a).Ends
      fun outcome => outcome.changed = outcome.paste.isSome := by
  unfold pixelDecode
  apply Step.ends_bind
  intro target a
  apply Step.ends_bind
  intro target a
  apply Step.ends_bind
  intro _ a
  rfl

theorem ends_wholeRectDecode
    (decodeRect : ℕ → ℕ → PixelFormat → Gen (Decoding codecs) S (Bytes × PixelFormat)) :
    ((wholeRectDecode decodeRect rect pixelFormat).run a).Ends
      fun outcome => outcome.changed = outcome.paste.isSome := by
  unfold wholeRectDecode
  apply Step.ends_bind
  intro _ a
  apply Step.ends_bind
  intro pixels a
  rfl

theorem renders_pixelDecode
    {decodePixels : RectBuffer → PixelFormat → Gen (Decoding codecs) S RectBuffer}
    (h : ∀ target pixelFormat a,
      ((decodePixels target pixelFormat).run a).Honours contract anything a) :
    Renders callback a ((pixelDecode decodePixels rect pixelFormat).run a) :=
  renders_of_honours (honours_pixelDecode h rect pixelFormat a) (ends_pixelDecode decodePixels)

/-- A CopyRect rectangle calls `copyRectangle`, and only for a source inside the framebuffer. -/
theorem renders_copyRectDecoder :
    Renders callback a (((copyRectDecoder callback).decode rect pixelFormat).run a) := by
  have hreads : ((copyRectDecodeForClient rect pixelFormat : Gen (Decoding codecs) S _).run a).Honours
      contract (fun t method => Draws t method true) a := by
    unfold copyRectDecodeForClient
    refine honours_bind (Q := anything) (honours_read _ fun _ _ => trivial) fun block t _ => ?_
    refine honours_get_bind ?_
    split_ifs with hinside
    · exact honours_raise
    · exact honours_pure (.copy _ _ rect (by omega) (by omega))
  exact renders_bind hreads fun method t hdraws => renders_invoke hdraws

/-- A Cursor rectangle calls `updateCursor`. -/
theorem renders_cursorDecoder :
    Renders callback a (((cursorDecoder callback).decode rect pixelFormat).run a) := by
  have hreads : ((cursorDecodeForClient rect pixelFormat : Gen (Decoding codecs) S _).run a).Honours
      contract (fun t method => Draws t method true) a := by
    unfold cursorDecodeForClient
    refine honours_bind (Q := anything) (honours_read _ fun _ _ => trivial) fun block t _ => ?_
    exact honours_pure (.cursor rect _ _)
  exact renders_bind hreads fun method t hdraws => renders_invoke hdraws

/-- What every decoder of the table comes to. -/
theorem renders_forConnection {encoding : ℤ} {decoder : Decoder callback}
    (h : forConnection callback encoding = some decoder) (rect : Rect) (pixelFormat : PixelFormat)
    (a : DAttrs codecs S) : Renders callback a ((decoder.decode rect pixelFormat).run a) := by
  obtain ⟨k, hmem⟩ := mem_of_lookup h
  simp only [decoders, List.mem_cons, Prod.mk.injEq, List.not_mem_nil, or_false] at hmem
  rcases hmem with ⟨-, rfl⟩ | ⟨-, rfl⟩ | ⟨-, rfl⟩ | ⟨-, rfl⟩ | ⟨-, rfl⟩ | ⟨-, rfl⟩ | ⟨-, rfl⟩ |
    ⟨-, rfl⟩ | ⟨-, rfl⟩ | ⟨-, rfl⟩ | ⟨-, rfl⟩
  · exact renders_of_honours (honours_rawDecode rect pixelFormat a) ends_rawDecode
  · exact renders_copyRectDecoder
  · exact renders_pixelDecode (honours_rreDecodePixels rreCoords)
  · exact renders_pixelDecode (honours_rreDecodePixels corReCoords)
  · exact renders_pixelDecode honours_hextileDecodePixels
  · exact renders_pixelDecode honours_zrleDecodePixels
  · exact renders_of_honours (honours_wholeRectDecode honours_tightDecodeRect rect pixelFormat a)
      (ends_wholeRectDecode tightDecodeRect)
  · exact renders_cursorDecoder
  · exact renders_invoke (.desktop rect.width rect.height)
  · exact renders_invoke (.pointer rect.x rect.y)
  · exact renders_of_honours (honours_qemuExtendedKeyDecode rect pixelFormat a) rfl

end

end Decoders

end VncDoTool
