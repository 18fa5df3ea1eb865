import RivermaxDevKit.Ipmx.ReportRoundTrip
import RivermaxDevKit.Lib.Reader

/-!
# IPMX Sender Report — what the parser uses

`fill_from_rtcp_sr_packet` (`ipmx.cpp`) on arbitrary packets: which bytes it
reads, and what it leaves in the `char` arrays of `IPMXStreamInfo`.

* `usesOnlyPacket_iff` — the `memcpy` of the whole structure stays inside the
  packet only if the packet is as long as the structure.
* `stringsFaithful_iff` — every array holds its own wire field, unless the
  colorimetry fills its field, or the media type is of another kind with the low
  byte of video.
-/

namespace RivermaxDevKit

open ByteStore Reader

/-! ## Bytes read -/

/-- `fill_from_rtcp_sr_packet` with its reads: `data` is only read by the
`memcpy`, all that follows reads the copy. -/
def fillFromRtcpSrPacketReader (len : Nat) (info : IpmxStreamInfo) :
    Reader (ReturnStatus × IpmxStreamInfo) :=
  if COMPOUND_PACKET_SIZE < len then pure (.failure, info)
  else do
    -- `sizeof(pkt)`, not `len`
    let pkt ← readBytes 0 COMPOUND_PACKET_SIZE
    pure (fillFromRtcpSrPacket (fun i => pkt.getD i 0) len info)

/-- Nothing behind the last character of the longest name is used. -/
theorem fillFromRtcpSrPacket_congr {data data' : Memory}
    (h : ∀ i < SDES_CNAME + RTCP_SDES_CNAME_LEN_MAX, data i = data' i) (len : Nat)
    (info : IpmxStreamInfo) :
    fillFromRtcpSrPacket data len info = fillFromRtcpSrPacket data' len info := by
  -- all fields lie below that character
  have hRead (a n : Nat) (hn : a + n ≤ SDES_CNAME + RTCP_SDES_CNAME_LEN_MAX) :
      read data a n = read data' a n := read_congr fun i _ hi => h i (by omega)
  have hNumber (a n : Nat) (hn : a + n ≤ SDES_CNAME + RTCP_SDES_CNAME_LEN_MAX) :
      ntoh data a n = ntoh data' a n := congrArg ofBigEndian (hRead a n hn)
  have hString (a n : Nat) (hn : a + n ≤ SDES_CNAME + RTCP_SDES_CNAME_LEN_MAX) :
      copyString data a n = copyString data' a n := by
    unfold copyString
    rw [hRead a n hn]
  have hVideo : fillVideo data = fillVideo data' := by
    unfold fillVideo
    simp (disch := decide) only [hNumber, hString, hRead]
  have hCname : fillCname data info.cname = fillCname data' info.cname := by
    have hLength : ntoh data' SDES_CNAME_LENGTH 1 < 256 := ntoh_lt data' SDES_CNAME_LENGTH 1
    -- the length byte bounds what is read of the name
    have hName := hRead SDES_CNAME (ntoh data' SDES_CNAME_LENGTH 1) (by simp at *; omega)
    simp only [fillCname, hNumber SDES_CNAME_LENGTH 1 (by decide), hName]
  unfold fillFromRtcpSrPacket
  rw [hVideo, hCname]
  simp (disch := decide) only [hNumber, hString]

theorem run_fillFromRtcpSrPacketReader (data : Memory) (len : Nat) (info : IpmxStreamInfo) :
    (fillFromRtcpSrPacketReader len info).run data = fillFromRtcpSrPacket data len info := by
  unfold fillFromRtcpSrPacketReader
  split
  · rename_i hLong
    exact (if_pos hLong).symm
  · rw [run_bind, run_readBytes]
    refine fillFromRtcpSrPacket_congr (fun i hi => ?_) len info
    -- the copy agrees with the packet where it is used
    have hInside : i < 476 := by simp at hi; omega
    simp [ByteStore.read, List.getElem?_range hInside]

/-- The result depends on the first `len` bytes only, and no other is read. -/
structure UsesOnlyPacket (len : Nat) : Prop where
  result : ∀ data data' : Memory, (∀ i < len, data i = data' i) →
    ∀ info, fillFromRtcpSrPacket data len info = fillFromRtcpSrPacket data' len info
  reads : ∀ data info, ReadsBelow len (fillFromRtcpSrPacketReader len info) data

theorem readsBelow_fillFromRtcpSrPacketReader {len : Nat} (hLen : len ≤ COMPOUND_PACKET_SIZE)
    (data : Memory) (info : IpmxStreamInfo) :
    ReadsBelow len (fillFromRtcpSrPacketReader len info) data ↔ len = COMPOUND_PACKET_SIZE := by
  unfold fillFromRtcpSrPacketReader
  rw [if_neg (Nat.not_lt.mpr hLen), readsBelow_bind,
    readsBelow_readBytes (by decide : 0 < COMPOUND_PACKET_SIZE)]
  simp only [readsBelow_pure, and_true, Nat.zero_add]
  omega

/-- **Reads of the parser.** For a packet that is not too long, the parser keeps
to the packet exactly if it has the size of `RTCPCompoundPacket`. -/
theorem usesOnlyPacket_iff {len : Nat} (hLen : len ≤ COMPOUND_PACKET_SIZE) :
    UsesOnlyPacket len ↔ len = COMPOUND_PACKET_SIZE := by
  constructor
  · -- the `memcpy` reads every byte of the structure
    intro h
    exact (readsBelow_fillFromRtcpSrPacketReader hLen (fun _ => 0) {}).mp (h.reads _ _)
  · intro hSize
    refine ⟨fun data data' hAgree info => ?_, fun data info => ?_⟩
    · refine fillFromRtcpSrPacket_congr (fun i hi => hAgree i ?_) len info
      simp at hi hSize
      omega
    · exact (readsBelow_fillFromRtcpSrPacketReader hLen data info).mpr hSize

theorem usesOnlyPacket_full : UsesOnlyPacket 476 := (usesOnlyPacket_iff (by decide)).mpr rfl

/-- A packet of 232 bytes whose name claims 255 characters: what stands behind it
in the buffer becomes part of the name. -/
theorem short_packet_reads_beyond :
    let data : Memory := fun i => if i = MEDIA_TYPE then 0 else if i = SDES_CNAME_LENGTH then 255
      else 1
    let data' : Memory := Function.update data 468 2
    (∀ i < 232, data i = data' i) ∧
      fillFromRtcpSrPacket data 232 {} ≠ fillFromRtcpSrPacket data' 232 {} ∧
      ¬ReadsBelow 232 (fillFromRtcpSrPacketReader 232 {}) data := by
  intro data data'
  refine ⟨?_, ?_, ?_⟩
  · intro i hi
    exact (Function.update_of_ne (by omega) _ _).symm
  · intro hSame
    have hName := congrArg (fun r => r.2.cname) hSame
    exact absurd hName (by decide +kernel)
  · rw [readsBelow_fillFromRtcpSrPacketReader (by decide)]
    decide

/-! ## Strings -/

/-- An array of `size` characters is terminated, and holds the string of a wire
field: up to its first NUL, or its full width. -/
structure HoldsField (array : List UInt8) (size : Nat) (field : List UInt8) : Prop where
  length : array.length = size
  terminated : 0 ∈ array
  string : cString array = cString field

/-- A copy with the terminator in its last byte holds the field before it. -/
theorem holdsField_copyString (pkt : Memory) (a n : Nat) :
    HoldsField (copyString pkt a (n + 1)) (n + 1) (read pkt a n) := by
  have hLength : (strncpy (read pkt a (n + 1)) (n + 1)).length = n + 1 := length_strncpy _ _
  refine ⟨by simp [copyString], ?_, ?_⟩
  · exact List.mem_set (by rw [hLength]; omega) 0
  -- the terminator replaces the last of the copied characters
  · have hSet : copyString pkt a (n + 1) =
        (strncpy (read pkt a (n + 1)) (n + 1)).take n ++ [0] := by
      rw [copyString, Nat.add_sub_cancel, List.set_eq_take_append_cons_drop,
        if_pos (by rw [hLength]; omega), List.drop_of_length_le hLength.le]
    rw [hSet, cString_append_cons_zero, cString_take, cString_strncpy, List.take_take,
      Nat.min_eq_left (Nat.le_succ n), ← cString_take, take_read _ _ (Nat.le_succ n)]

/-- A full copy without a terminator holds the field only if a NUL comes with
it. -/
theorem holdsField_strncpy_iff (pkt : Memory) (a n : Nat) :
    HoldsField (strncpy (read pkt a (n + 1)) (n + 1)) (n + 1) (read pkt a n) ↔
      0 ∈ read pkt a (n + 1) := by
  constructor
  · intro h
    by_contra hNone
    have hAll : ∀ b ∈ read pkt a (n + 1), b ≠ 0 := fun b hb hZero => hNone (hZero ▸ hb)
    -- without a NUL the copy fills the array
    have hFull : strncpy (read pkt a (n + 1)) (n + 1) = read pkt a (n + 1) := by
      simp [strncpy, cString_eq_self hAll, List.take_of_length_le]
    have hTerminated := h.terminated
    rw [hFull] at hTerminated
    exact hNone hTerminated
  · intro hNul
    -- the string ends before the last byte
    have hShort : (cString (read pkt a (n + 1))).length ≤ n := by
      by_contra hLong
      have hPrefix : cString (read pkt a (n + 1)) <+: read pkt a (n + 1) :=
        List.takeWhile_prefix _
      have hWhole := hPrefix.eq_of_length_le (by rw [length_read]; omega)
      exact ne_zero_of_mem_cString (hWhole ▸ hNul) rfl
    refine ⟨length_strncpy _ _, ?_, ?_⟩
    -- `strncpy` pads behind the string
    · refine List.mem_append_right _ (List.mem_replicate.mpr ⟨?_, rfl⟩)
      rw [List.length_take]
      omega
    · rw [cString_strncpy, List.take_of_length_le (by omega),
        ← take_read pkt a (Nat.le_succ n), cString_take, List.take_of_length_le hShort]

theorem holdsField_fillCname (pkt : Memory) {cname : List UInt8} (hCname : cname.length = 256) :
    HoldsField (fillCname pkt cname) 256 (read pkt SDES_CNAME (ntoh pkt SDES_CNAME_LENGTH 1)) := by
  have hLength : ntoh pkt SDES_CNAME_LENGTH 1 < 256 := ntoh_lt pkt SDES_CNAME_LENGTH 1
  -- the copy, and what is left of the name before
  have hWhole : (strncpy (read pkt SDES_CNAME (ntoh pkt SDES_CNAME_LENGTH 1))
      (ntoh pkt SDES_CNAME_LENGTH 1) ++ cname.drop (ntoh pkt SDES_CNAME_LENGTH 1)).length =
        256 := by
    rw [List.length_append, length_strncpy, List.length_drop, hCname]
    omega
  refine ⟨?_, ?_, cString_fillCname pkt cname⟩
  · rw [fillCname, List.length_set, hWhole]
  · exact List.mem_set (by rw [hWhole]; exact hLength) 0

/-- The video fields and the name are those of the packet. -/
structure VideoFilled (data : Memory) (info : IpmxStreamInfo) : Prop where
  video : info.video = fillVideo data
  sampling : HoldsField info.video.samplingFormat 17 (read data MEDIA_SAMPLING 16)
  range : HoldsField info.video.range 13 (read data MEDIA_RANGE 12)
  colorimetry : HoldsField info.video.colorimetry 21 (read data MEDIA_COLORIMETRY 20)
  tcs : HoldsField info.video.tcs 17 (read data MEDIA_TCS 16)
  cname : HoldsField info.cname 256 (read data SDES_CNAME (ntoh data SDES_CNAME_LENGTH 1))

/-- What one call leaves of `info`: nothing changed on failure; the strings of
the packet, those of the video fields for the media type of video and no
other. -/
structure StringsFaithful (data : Memory) (len : Nat) (info : IpmxStreamInfo) : Prop where
  failed : (fillFromRtcpSrPacket data len info).1 ≠ .success →
    (fillFromRtcpSrPacket data len info).2 = info
  tsRefclk : (fillFromRtcpSrPacket data len info).1 = .success →
    HoldsField (fillFromRtcpSrPacket data len info).2.tsRefclk 65 (read data INFO_TS_REFCLK 64)
  mediaclk : (fillFromRtcpSrPacket data len info).1 = .success →
    HoldsField (fillFromRtcpSrPacket data len info).2.mediaclk 13 (read data INFO_MEDIACLK 12)
  video : (fillFromRtcpSrPacket data len info).1 = .success →
    ntoh data MEDIA_TYPE 2 = IPMX_MIB_TYPE_UNCOMPRESSED_VIDEO →
      VideoFilled data (fillFromRtcpSrPacket data len info).2
  other : (fillFromRtcpSrPacket data len info).1 = .success →
    ntoh data MEDIA_TYPE 2 ≠ IPMX_MIB_TYPE_UNCOMPRESSED_VIDEO →
      (fillFromRtcpSrPacket data len info).2.video = info.video ∧
        (fillFromRtcpSrPacket data len info).2.cname = info.cname

/-- The low byte of the media type is that of video. -/
def NarrowsToVideo (data : Memory) : Prop :=
  ntoh data MEDIA_TYPE 2 % 2 ^ 8 = IPMX_MIB_TYPE_UNCOMPRESSED_VIDEO

/-- The three ways through the parser. -/
theorem fillFromRtcpSrPacket_cases (data : Memory) (len : Nat) (info : IpmxStreamInfo) :
    (COMPOUND_PACKET_SIZE < len ∧ fillFromRtcpSrPacket data len info = (.failure, info)) ∨
      (len ≤ COMPOUND_PACKET_SIZE ∧ (fillFromRtcpSrPacket data len info).1 = .success ∧
        (fillFromRtcpSrPacket data len info).2.tsRefclk = copyString data INFO_TS_REFCLK 65 ∧
        (fillFromRtcpSrPacket data len info).2.mediaclk = copyString data INFO_MEDIACLK 13 ∧
        (NarrowsToVideo data →
          (fillFromRtcpSrPacket data len info).2.video = fillVideo data ∧
            (fillFromRtcpSrPacket data len info).2.cname = fillCname data info.cname) ∧
        (¬NarrowsToVideo data →
          (fillFromRtcpSrPacket data len info).2.video = info.video ∧
            (fillFromRtcpSrPacket data len info).2.cname = info.cname)) := by
  unfold fillFromRtcpSrPacket
  split
  · rename_i hLong
    exact .inl ⟨hLong, rfl⟩
  · rename_i hLen
    refine .inr ⟨Nat.not_lt.mp hLen, ?_⟩
    dsimp only
    split
    · rename_i hOther
      -- no video: the block ends behind the clocks
      exact ⟨rfl, rfl, rfl, fun hVideo => absurd hVideo hOther, fun _ => ⟨rfl, rfl⟩⟩
    · rename_i hVideo
      exact ⟨rfl, rfl, rfl, fun _ => ⟨rfl, rfl⟩, fun hOther => absurd (not_not.mp hVideo) hOther⟩

/-- **Strings of the parser.** For every packet and every length, whatever the
object held before: the parsed strings are bounded and faithful exactly if a
packet whose media type narrows to video has the type of video, and a NUL in its
colorimetry or right behind it. -/
theorem stringsFaithful_iff (data : Memory) (len : Nat) :
    (∀ info : IpmxStreamInfo, info.cname.length = 256 → StringsFaithful data len info) ↔
      (len ≤ COMPOUND_PACKET_SIZE → NarrowsToVideo data →
        ntoh data MEDIA_TYPE 2 = IPMX_MIB_TYPE_UNCOMPRESSED_VIDEO ∧
          0 ∈ read data MEDIA_COLORIMETRY 21) := by
  constructor
  · intro h hLen hNarrow
    have hType : ntoh data MEDIA_TYPE 2 = IPMX_MIB_TYPE_UNCOMPRESSED_VIDEO := by
      by_contra hOther
      -- an object whose video fields are not those of the packet
      let old : IpmxStreamInfo := { video := { width := (fillVideo data).width + 1 } }
      rcases fillFromRtcpSrPacket_cases data len old with
        ⟨hLong, -⟩ | ⟨-, hSuccess, -, -, hFilled, -⟩
      · omega
      · have hKept := ((h old List.length_replicate).other hSuccess hOther).1
        rw [(hFilled hNarrow).1] at hKept
        have hWidth : (fillVideo data).width = (fillVideo data).width + 1 :=
          congrArg IpmxStreamVideoInfo.width hKept
        omega
    refine ⟨hType, ?_⟩
    rcases fillFromRtcpSrPacket_cases data len {} with
      ⟨hLong, -⟩ | ⟨-, hSuccess, -, -, hFilled, -⟩
    · omega
    -- the colorimetry is the field that is copied in full
    · have hColorimetry := ((h {} List.length_replicate).video hSuccess hType).colorimetry
      rw [(hFilled hNarrow).1] at hColorimetry
      exact (holdsField_strncpy_iff data MEDIA_COLORIMETRY 20).mp hColorimetry
  · intro hGood info hCname
    rcases fillFromRtcpSrPacket_cases data len info with
      ⟨-, hFailed⟩ | ⟨hLen, hSuccess, hRefclk, hMediaclk, hFilled, hKept⟩
    · -- a failed call sets nothing
      have hStatus : (fillFromRtcpSrPacket data len info).1 ≠ .success := by
        rw [hFailed]
        nofun
      exact ⟨fun _ => by rw [hFailed], fun h => absurd h hStatus, fun h => absurd h hStatus,
        fun h => absurd h hStatus, fun h => absurd h hStatus⟩
    · refine ⟨fun hFailed => absurd hSuccess hFailed, fun _ => ?_, fun _ => ?_, fun _ hType => ?_,
        fun _ hOther => ?_⟩
      · rw [hRefclk]
        exact holdsField_copyString data INFO_TS_REFCLK 64
      · rw [hMediaclk]
        exact holdsField_copyString data INFO_MEDIACLK 12
      · have hNarrow : NarrowsToVideo data := by
          rw [NarrowsToVideo, hType]
          rfl
        -- a packet of video fills the video fields
        obtain ⟨hVideo, hName⟩ := hFilled hNarrow
        refine ⟨hVideo, ?_, ?_, ?_, ?_, ?_⟩
        · rw [hVideo]
          exact holdsField_copyString data MEDIA_SAMPLING 16
        · rw [hVideo]
          exact holdsField_copyString data MEDIA_RANGE 12
        · rw [hVideo]
          exact (holdsField_strncpy_iff data MEDIA_COLORIMETRY 20).mpr (hGood hLen hNarrow).2
        · rw [hVideo]
          exact holdsField_copyString data MEDIA_TCS 16
        · rw [hName]
          exact holdsField_fillCname data hCname
      -- no other type narrows to video
      · exact hKept fun hNarrow => hOther (hGood hLen hNarrow).1

/-- A report of a video stream with its sampling and a short colorimetry. -/
theorem stringsFaithful_bt709 :
    let data := writeAll [(MEDIA_TYPE, bigEndian 2 1), (MEDIA_SAMPLING, asciiBytes "YCbCr-4:2:2"),
      (MEDIA_COLORIMETRY, asciiBytes "BT709")] fun _ => 0
    StringsFaithful data 476 {} ∧
      (fillFromRtcpSrPacket data 476 {}).2.video.colorimetry.take 6 = asciiBytes "BT709" ++ [0] ∧
      (fillFromRtcpSrPacket data 476 {}).2.video.samplingFormat.take 12 =
        asciiBytes "YCbCr-4:2:2" ++ [0] := by
  intro data
  refine ⟨?_, by decide +kernel, by decide +kernel⟩
  exact (stringsFaithful_iff data 476).mpr
    (fun _ _ => ⟨by decide +kernel, by decide +kernel⟩) {} List.length_replicate

/-- A colorimetry of twenty characters runs into the transfer characteristics. -/
theorem full_colorimetry_unterminated :
    let data := write MEDIA_COLORIMETRY (List.replicate 20 65 ++ asciiBytes "SDR")
      (write MEDIA_TYPE (bigEndian 2 1) fun _ => 0)
    (fillFromRtcpSrPacket data 476 {}).1 = .success ∧
      (fillFromRtcpSrPacket data 476 {}).2.video.colorimetry =
        List.replicate 20 65 ++ asciiBytes "S" ∧
      ¬StringsFaithful data 476 {} := by
  intro data
  refine ⟨by decide +kernel, by decide +kernel, fun h => ?_⟩
  -- no byte of the array is a NUL
  have hHolds := (h.video (by decide +kernel) (by decide +kernel)).colorimetry.terminated
  exact absurd hHolds (by decide +kernel)

end RivermaxDevKit
