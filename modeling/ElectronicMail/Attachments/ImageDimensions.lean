import Mathlib.Data.List.Basic

/-!
# The dimensions of remote images

A remote image is a tracking pixel if its header says that it is small. In a JPEG the frame header
comes after other segments, and the loop of `_image_dimensions` walks over them by their lengths.
`Readable` is the language that it reads (`loop_iff`). The loop takes a fill byte before a marker
for the marker itself: `dimensions_iff` says for which streams it finds the frame all the same.
-/

namespace ElectronicMail.Attachments

abbrev Bytes := List UInt8

/-! ## The scanner -/

/-- `int.from_bytes(…, "big")`. -/
def fromBytes (bytes : Bytes) : Nat := bytes.foldl (fun n byte => n * 256 + byte.toNat) 0

/-- `content[start:stop]`. A slice beyond the content, which would be cut short, is an error, as
`content[index]` is. -/
def slice (content : Bytes) (start stop : Nat) : Option Bytes :=
  if stop ≤ content.length then some ((content.drop start).take (stop - start)) else none

def startOfFrame : List UInt8 :=
  [0xC0, 0xC1, 0xC2, 0xC3, 0xC5, 0xC6, 0xC7, 0xC9, 0xCA, 0xCB, 0xCD, 0xCE, 0xCF]

/-- The loop of `_image_dimensions`: the dimensions as width and height, nothing where it ends
without them, and no result where it reads outside of the content. -/
def jpegLoop (content : Bytes) (index : Nat) : Option (Option (Nat × Nat)) :=
  if _h : index + 9 ≤ content.length then
    match content[index]?, content[index + 1]? with
    | some byte, some marker =>
      if byte ≠ 0xFF then jpegLoop content (index + 1)
      else if marker = 0xD8 ∨ marker = 0xD9 then jpegLoop content (index + 2)
      else if content.length < index + 2 + 2 then some none
      else
        match (slice content (index + 2) (index + 4)).map fromBytes with
        | none => none
        | some segmentLength =>
          if segmentLength < 2 ∨ content.length < index + 2 + segmentLength then some none
          else if marker ∈ startOfFrame then
            if 7 ≤ segmentLength then
              match slice content (index + 5) (index + 7), slice content (index + 7) (index + 9) with
              | some height, some width => some (some (fromBytes width, fromBytes height))
              | _, _ => none
            else some none
          else jpegLoop content (index + 2 + segmentLength)
    | _, _ => none
  else some none
  termination_by content.length - index

/-- `_image_dimensions`. -/
def imageDimensions (content : Bytes) (mimeType : String) : Option (Option (Nat × Nat)) :=
  if mimeType = "image/png" ∧ 24 ≤ content.length ∧
      content.take 8 = [0x89, 0x50, 0x4E, 0x47, 0x0D, 0x0A, 0x1A, 0x0A] then
    some (some (fromBytes ((content.drop 16).take 4), fromBytes ((content.drop 20).take 4)))
  else if mimeType = "image/gif" ∧ 10 ≤ content.length ∧
      (content.take 6 = [0x47, 0x49, 0x46, 0x38, 0x37, 0x61] ∨
        content.take 6 = [0x47, 0x49, 0x46, 0x38, 0x39, 0x61]) then
    some (some (fromBytes ((content.drop 6).take 2).reverse,
      fromBytes ((content.drop 8).take 2).reverse))
  else
    let found := if (mimeType = "image/jpeg" ∨ mimeType = "image/jpg") ∧
      content.take 2 = [0xFF, 0xD8] then jpegLoop content 2 else some none
    if found ≠ some none then found
    else if mimeType = "image/webp" ∧ 30 ≤ content.length ∧
        content.take 4 = [0x52, 0x49, 0x46, 0x46] ∧
        (content.drop 8).take 4 = [0x57, 0x45, 0x42, 0x50] ∧
        (content.drop 12).take 4 = [0x56, 0x50, 0x38, 0x58] then
      some (some (1 + fromBytes ((content.drop 24).take 3).reverse,
        1 + fromBytes ((content.drop 27).take 3).reverse))
    else some none

/-- `_is_tracking_pixel`. -/
def isTrackingPixel (content : Bytes) (mimeType : String) : Option Bool :=
  (imageDimensions content mimeType).map fun dimensions =>
    match dimensions with
    | some (width, height) => width ≤ 2 && height ≤ 2
    | none => false

/-! ## JPEG streams -/

structure Segment where
  marker : UInt8
  high : UInt8
  low : UInt8
  payload : Bytes
  length_eq : fromBytes [high, low] = payload.length + 2

def Segment.bytes (s : Segment) : Bytes := 0xFF :: s.marker :: s.high :: s.low :: s.payload

def Segment.size (s : Segment) : Nat × Nat :=
  (fromBytes ((s.payload.drop 3).take 2), fromBytes ((s.payload.drop 1).take 2))

/-- Markers that stand alone, `RST`, `SOI` and `EOI` among them, and the bytes that are none. -/
def standalone : List UInt8 :=
  [0x00, 0x01, 0xD0, 0xD1, 0xD2, 0xD3, 0xD4, 0xD5, 0xD6, 0xD7, 0xD8, 0xD9, 0xFF]

def filled (s : Nat × Segment) : Bytes := List.replicate s.1 0xFF ++ s.2.bytes

/-- A stream up to its first frame header, which comes before the first scan. -/
structure Stream where
  before : List (Nat × Segment)
  frame : Nat × Segment
  rest : Bytes
  before_marker : ∀ s ∈ before,
    s.2.marker ∉ standalone ∧ s.2.marker ∉ startOfFrame ∧ s.2.marker ≠ 0xDA
  frame_marker : frame.2.marker ∈ startOfFrame
  frame_payload : 6 ≤ frame.2.payload.length

namespace Stream

variable (stream : Stream)

def segments : List (Nat × Segment) := stream.before ++ [stream.frame]

def bytes : Bytes := 0xFF :: 0xD8 :: (stream.segments.flatMap filled ++ stream.rest)

def Found (mimeType : String) : Prop :=
  imageDimensions stream.bytes mimeType = some (some stream.frame.2.size) ∧
    (stream.frame.2.size.1 ≤ 2 → stream.frame.2.size.2 ≤ 2 →
      isTrackingPixel stream.bytes mimeType = some true)

/-- The segments from the first one on that is preceded by a fill byte. -/
def fromFill : List (Nat × Segment) := stream.segments.dropWhile fun s => s.1 == 0

end Stream

/-- What can be read as bytes other than `0xFF`, `SOI`, `EOI` and segments, whatever their markers
are, up to a frame header. -/
inductive Readable : Bytes → Nat × Nat → Prop
  | byte {byte : UInt8} {bytes : Bytes} {size : Nat × Nat} (hbyte : byte ≠ 0xFF)
    (h : Readable bytes size) : Readable (byte :: bytes) size
  | alone {marker : UInt8} {bytes : Bytes} {size : Nat × Nat}
    (hmarker : marker = 0xD8 ∨ marker = 0xD9) (h : Readable bytes size) :
    Readable (0xFF :: marker :: bytes) size
  | segment {s : Segment} {bytes : Bytes} {size : Nat × Nat}
    (halone : ¬ (s.marker = 0xD8 ∨ s.marker = 0xD9)) (hframe : s.marker ∉ startOfFrame)
    (h : Readable bytes size) : Readable (s.bytes ++ bytes) size
  | frame {s : Segment} {rest : Bytes} (hframe : s.marker ∈ startOfFrame)
    (hpayload : 5 ≤ s.payload.length) : Readable (s.bytes ++ rest) s.size

/-! ## The loop -/

section Loop

variable {content tail : Bytes} {index : Nat} {b marker high low : UInt8} {size : Nat × Nat}

theorem loop_short (h : content.length < index + 9) : jpegLoop content index = some none := by
  rw [jpegLoop, dif_neg (Nat.not_le.2 h)]

theorem loop_cons (h : content.drop index = b :: marker :: high :: low :: tail)
    (htail : 5 ≤ tail.length) :
    jpegLoop content index =
      if b ≠ 0xFF then jpegLoop content (index + 1)
      else if marker = 0xD8 ∨ marker = 0xD9 then jpegLoop content (index + 2)
      else if fromBytes [high, low] < 2 ∨ tail.length + 2 < fromBytes [high, low] then some none
      else if marker ∈ startOfFrame then
        if 7 ≤ fromBytes [high, low] then
          some (some (fromBytes ((tail.drop 3).take 2), fromBytes ((tail.drop 1).take 2)))
        else some none
      else jpegLoop content (index + 2 + fromBytes [high, low]) := by
  have hlength := congrArg List.length h
  simp only [List.length_drop, List.length_cons] at hlength
  have hat (k : Nat) : content[index + k]? = (b :: marker :: high :: low :: tail)[k]? := by
    rw [← h, List.getElem?_drop]
  have hdrop (k : Nat) : content.drop (index + k) = (b :: marker :: high :: low :: tail).drop k := by
    rw [← h, List.drop_drop]
  have hslice (k : Nat) (hk : k ≤ 7) : slice content (index + k) (index + (k + 2)) =
      some (((b :: marker :: high :: low :: tail).drop k).take 2) := by
    rw [slice, if_pos (by omega), hdrop]
    congr 2
    omega
  have hfirst : content[index]? = some b := hat 0
  have hsecond : content[index + 1]? = some marker := hat 1
  have hout : content.length < index + 2 + fromBytes [high, low] ↔
      tail.length + 2 < fromBytes [high, low] := by omega
  rw [jpegLoop, dif_pos (by omega), hfirst, hsecond]
  dsimp only
  rw [if_neg (show ¬ content.length < index + 2 + 2 by omega), hslice 2 (by omega),
    hslice 5 (by omega), hslice 7 (by omega)]
  dsimp only [Option.map_some]
  have hlow : ((b :: marker :: high :: low :: tail).drop 2).take 2 = [high, low] := rfl
  rw [hlow]
  simp only [hout]
  rfl

theorem loop_isSome (content : Bytes) (index : Nat) : (jpegLoop content index).isSome = true := by
  induction hn : content.length - index using Nat.strongRecOn generalizing index with
  | ind n ih =>
    by_cases hshort : content.length < index + 9
    · rw [loop_short hshort]
      rfl
    have hlength := List.length_drop (i := index) (l := content)
    match hdrop : content.drop index with
    | [] | [_] | [_, _] | [_, _, _] =>
      rw [hdrop] at hlength
      simp only [List.length_cons, List.length_nil] at hlength
      omega
    | b :: marker :: high :: low :: tail =>
      rw [hdrop] at hlength
      simp only [List.length_cons] at hlength
      rw [loop_cons hdrop (by omega)]
      split_ifs
      · exact ih _ (by omega) _ rfl
      · exact ih _ (by omega) _ rfl
      · rfl
      · rfl
      · rfl
      · exact ih _ (by omega) _ rfl

theorem Segment.bytes_append (s : Segment) (bytes : Bytes) :
    s.bytes ++ bytes = 0xFF :: s.marker :: s.high :: s.low :: (s.payload ++ bytes) := rfl

theorem Readable.length (h : Readable tail size) : 9 ≤ tail.length := by
  induction h with
  | byte _ _ ih | alone _ _ ih =>
    simp only [List.length_cons]
    omega
  | segment _ _ _ ih =>
    rw [List.length_append]
    omega
  | frame _ hpayload =>
    simp only [Segment.bytes, List.length_append, List.length_cons]
    omega

theorem Segment.size_eq {s : Segment} (h : 5 ≤ s.payload.length) (rest : Bytes) :
    s.size = (fromBytes (((s.payload ++ rest).drop 3).take 2),
      fromBytes (((s.payload ++ rest).drop 1).take 2)) := by
  rw [List.drop_append_of_le_length (by omega), List.drop_append_of_le_length (by omega),
    List.take_append_of_le_length (by rw [List.length_drop]; omega),
    List.take_append_of_le_length (by rw [List.length_drop]; omega), Segment.size]

theorem readable_of_loop (h : jpegLoop content index = some (some size)) :
    Readable (content.drop index) size := by
  induction hn : content.length - index using Nat.strongRecOn generalizing index with
  | ind n ih =>
    by_cases hshort : content.length < index + 9
    · rw [loop_short hshort] at h
      cases h
    have hlength := List.length_drop (i := index) (l := content)
    match hdrop : content.drop index with
    | [] | [_] | [_, _] | [_, _, _] =>
      rw [hdrop] at hlength
      simp only [List.length_cons, List.length_nil] at hlength
      omega
    | b :: marker :: high :: low :: tail =>
      rw [hdrop] at hlength
      simp only [List.length_cons] at hlength
      have hnext {k : Nat} (hk : 0 < k) (h : jpegLoop content (index + k) = some (some size)) :
          Readable ((b :: marker :: high :: low :: tail).drop k) size := by
        rw [← hdrop, List.drop_drop]
        exact ih _ (by omega) h rfl
      -- The length divides what is left into the payload of a segment and the rest.
      have hsegment {m : Nat} (hm : fromBytes [high, low] = m + 2) (hle : m ≤ tail.length)
          (hb : b = 0xFF) : ∃ s : Segment, s.marker = marker ∧ s.payload = tail.take m ∧
            b :: marker :: high :: low :: tail = s.bytes ++ tail.drop m := by
        have heq : fromBytes [high, low] = (tail.take m).length + 2 := by
          rw [List.length_take]
          omega
        refine ⟨⟨marker, high, low, tail.take m, heq⟩, rfl, rfl, ?_⟩
        rw [Segment.bytes_append, List.take_append_drop, hb]
      rw [loop_cons hdrop (by omega)] at h
      split_ifs at h with hb hmarker hcut hframe hlong
      · exact .byte hb (hnext Nat.one_pos h)
      · rw [not_not.1 hb]
        exact .alone hmarker (hnext Nat.two_pos h)
      · cases h
      · obtain ⟨m, hm⟩ := Nat.exists_eq_add_of_le' (show 2 ≤ fromBytes [high, low] by omega)
        obtain ⟨s, rfl, hs, hbytes⟩ := hsegment hm (by omega) (not_not.1 hb)
        have hpayload : 5 ≤ s.payload.length := by
          rw [hs, List.length_take]
          omega
        have hsize := Segment.size_eq hpayload (tail.drop m)
        rw [hs, List.take_append_drop] at hsize
        rw [hbytes, ← Option.some.inj (Option.some.inj h), ← hsize]
        exact .frame hframe hpayload
      · cases h
      · obtain ⟨m, hm⟩ := Nat.exists_eq_add_of_le' (show 2 ≤ fromBytes [high, low] by omega)
        obtain ⟨s, rfl, -, hbytes⟩ := hsegment hm (by omega) (not_not.1 hb)
        rw [hm, show index + 2 + (m + 2) = index + (m + 4) by omega] at h
        have hrest := hnext (Nat.succ_pos _) h
        rw [hbytes]
        exact .segment hmarker hframe hrest

/-- **The language of the loop.** It finds dimensions exactly where it can read up to them. -/
theorem loop_iff : jpegLoop content index = some (some size) ↔ Readable (content.drop index) size := by
  refine ⟨readable_of_loop, fun h => ?_⟩
  generalize hbytes : content.drop index = bytes at h
  induction h generalizing index with
  | @byte byte bytes size hbyte h ih =>
    have hnine := h.length
    match bytes, h, hnine with
    | marker :: high :: low :: tail, h, hnine =>
      simp only [List.length_cons] at hnine
      rw [loop_cons hbytes (by omega), if_pos hbyte]
      apply ih
      rw [← List.drop_drop, hbytes]
      rfl
  | @alone marker bytes size hmarker h ih =>
    have hnine := h.length
    match bytes, h, hnine with
    | high :: low :: tail, h, hnine =>
      simp only [List.length_cons] at hnine
      rw [loop_cons hbytes (by omega), if_neg (by simp), if_pos hmarker]
      apply ih
      rw [← List.drop_drop, hbytes]
      rfl
  | @segment s bytes size halone hframe h ih =>
    have hnine := h.length
    have hlength := s.length_eq
    rw [Segment.bytes_append] at hbytes
    have htail : (s.payload ++ bytes).length = s.payload.length + bytes.length :=
      List.length_append
    rw [loop_cons hbytes (by omega), if_neg (by simp), if_neg halone, if_neg (by omega),
      if_neg hframe, hlength]
    apply ih
    rw [Nat.add_assoc, ← List.drop_drop, hbytes, Nat.add_comm]
    exact List.drop_left
  | @frame s rest hframe hpayload =>
    have hlength := s.length_eq
    rw [Segment.bytes_append] at hbytes
    have htail : (s.payload ++ rest).length = s.payload.length + rest.length :=
      List.length_append
    have halone : ¬ (s.marker = 0xD8 ∨ s.marker = 0xD9) := by
      rintro (heq | heq)
      · exact absurd (heq ▸ hframe) (by decide)
      · exact absurd (heq ▸ hframe) (by decide)
    rw [loop_cons hbytes (by omega), if_neg (by simp), if_neg halone, if_neg (by omega),
      if_pos hframe, if_pos (by omega), Segment.size_eq hpayload rest]

end Loop

/-! ## Streams -/

section Streams

variable {s : Segment} {bytes rest : Bytes} {size : Nat × Nat}

theorem readable_segment_iff (halone : s.marker ∉ standalone) (hframe : s.marker ∉ startOfFrame) :
    Readable (s.bytes ++ bytes) size ↔ Readable bytes size := by
  have halone : ¬ (s.marker = 0xD8 ∨ s.marker = 0xD9) := by
    rintro (heq | heq)
    · exact halone (heq ▸ by decide)
    · exact halone (heq ▸ by decide)
  refine ⟨fun h => ?_, .segment halone hframe⟩
  have hlength := h.length
  rw [Segment.bytes_append] at hlength
  simp only [List.length_cons] at hlength
  have htail : (s.payload ++ bytes).length = s.payload.length + bytes.length := List.length_append
  have heq := s.length_eq
  have hloop := (@loop_iff (s.bytes ++ bytes) 0 size).2 h
  have hdrop : (s.bytes ++ bytes).drop 0 =
      0xFF :: s.marker :: s.high :: s.low :: (s.payload ++ bytes) := rfl
  rw [loop_cons hdrop (by omega), if_neg (by simp), if_neg halone,
    if_neg (by omega), if_neg hframe, heq, loop_iff] at hloop
  have hrest : (s.bytes ++ bytes).drop (0 + 2 + (s.payload.length + 2)) = bytes := by
    rw [Segment.bytes_append, show 0 + 2 + (s.payload.length + 2) = s.payload.length + 4 by omega]
    exact List.drop_left
  rwa [hrest] at hloop

theorem Stream.readable_iff (stream : Stream) :
    Readable (stream.segments.flatMap filled ++ stream.rest) stream.frame.2.size ↔
      stream.fromFill = [] ∨
        Readable (stream.fromFill.flatMap filled ++ stream.rest) stream.frame.2.size := by
  obtain ⟨before, frame, rest, hbefore, hmarker, hpayload⟩ := stream
  unfold Stream.fromFill Stream.segments
  dsimp only
  induction before with
  | nil =>
    by_cases hfill : frame.1 = 0
    · have hread : Readable (frame.2.bytes ++ rest) frame.2.size := .frame hmarker (by omega)
      simpa [filled, hfill] using hread
    · simp [hfill]
  | cons first before ih =>
    have hrest := ih fun s hs => hbefore s (List.mem_cons_of_mem _ hs)
    obtain ⟨halone, hframe, -⟩ := hbefore first List.mem_cons_self
    by_cases hfill : first.1 = 0
    · have hbytes : filled first = first.2.bytes := by simp [filled, hfill]
      rw [List.cons_append, List.flatMap_cons, hbytes, List.append_assoc,
        readable_segment_iff halone hframe, List.dropWhile_cons_of_pos (by simpa using hfill)]
      exact hrest
    · rw [List.cons_append, List.dropWhile_cons_of_neg (by simpa using hfill)]
      simp

end Streams

theorem imageDimensions_isSome (content : Bytes) (mimeType : String) :
    (imageDimensions content mimeType).isSome = true := by
  unfold imageDimensions
  dsimp only
  split_ifs
  all_goals first | rfl | exact loop_isSome content 2

/-- **JPEG dimensions.** No scan reads outside of the content, and the dimensions of a stream are
found exactly if no segment up to the frame header is preceded by a fill byte, or if the bytes from
the first such segment on can be read up to a frame header of the same size. -/
theorem dimensions_iff (content : Bytes) (stream : Stream) :
    (∀ index, (jpegLoop content index).isSome = true) ∧
    (∀ mimeType, (imageDimensions content mimeType).isSome = true) ∧
    ∀ mimeType, mimeType = "image/jpeg" ∨ mimeType = "image/jpg" →
      (stream.Found mimeType ↔ stream.fromFill = [] ∨
        Readable (stream.fromFill.flatMap filled ++ stream.rest) stream.frame.2.size) := by
  refine ⟨loop_isSome content, imageDimensions_isSome content, fun mimeType hmime => ?_⟩
  have hloop := @loop_iff stream.bytes 2 stream.frame.2.size
  have hdrop : stream.bytes.drop 2 = stream.segments.flatMap filled ++ stream.rest := rfl
  rw [hdrop, stream.readable_iff] at hloop
  rw [← hloop]
  have hdimensions : imageDimensions stream.bytes mimeType = some (some stream.frame.2.size) ↔
      jpegLoop stream.bytes 2 = some (some stream.frame.2.size) := by
    have hstart : stream.bytes.take 2 = [0xFF, 0xD8] := rfl
    have hpng : mimeType ≠ "image/png" := by rcases hmime with rfl | rfl <;> decide
    have hgif : mimeType ≠ "image/gif" := by rcases hmime with rfl | rfl <;> decide
    have hwebp : mimeType ≠ "image/webp" := by rcases hmime with rfl | rfl <;> decide
    unfold imageDimensions
    rw [if_neg fun h => hpng h.1, if_neg fun h => hgif h.1]
    simp only [hmime, hstart, hwebp, false_and, and_self, if_true, if_false]
    split_ifs with hfound
    · rfl
    · rw [not_not.1 hfound]
  refine ⟨fun h => hdimensions.1 h.1, fun h => ⟨hdimensions.2 h, fun hwidth hheight => ?_⟩⟩
  rw [isTrackingPixel, hdimensions.2 h, Option.map_some]
  simp [hwidth, hheight]

def filledPixel : Stream where
  before := []
  frame := (1, ⟨0xC0, 0, 11, [8, 0, 1, 0, 1, 1, 1, 0x11, 0], rfl⟩)
  rest := [0xFF, 0xD9]
  before_marker := nofun
  frame_marker := by decide
  frame_payload := by decide

theorem fill_byte_hides_pixel :
    filledPixel.frame.2.size = (1, 1) ∧ ¬ filledPixel.Found "image/jpeg" ∧
      isTrackingPixel filledPixel.bytes "image/jpeg" = some false := by
  have hnone : imageDimensions filledPixel.bytes "image/jpeg" = some none := by
    have hloop : jpegLoop filledPixel.bytes 2 = some none := by
      rw [jpegLoop]
      rfl
    simp [imageDimensions, hloop]
  refine ⟨rfl, fun h => ?_, ?_⟩
  · rw [Stream.Found, hnone] at h
    exact absurd h.1 nofun
  · rw [isTrackingPixel, hnone]
    rfl

end ElectronicMail.Attachments
