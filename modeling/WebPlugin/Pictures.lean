/-
# The sizes of accepted pictures

`WebPGetFeatures` accepts only files with a picture of positive sides, of at
most `2 ^ 24` and with an area below `2 ^ 32` (`features_sizes`): the canvas of
a VP8X chunk, or a frame header with sides of 14 bits. A decoder that `decode`
has filled in has these sides (`decode_facts`).
-/
import WebPlugin.Decoder
import WebPlugin.AnimFacts

namespace WebPlugin

open Memory Ledger Words

/-- The sides of a picture. -/
structure PictureSize (w h : ℤ) : Prop where
  width : 0 < w ∧ w ≤ 2 ^ 24
  height : 0 < h ∧ h ≤ 2 ^ 24
  area : w * h < 2 ^ 32

section

variable {d d' : WebPData} {f g : WebPBitstreamFeatures} {v : VP8XChunk} {w h : ℤ} {alpha : Bool}

/-- Sides of 14 bits. -/
theorem PictureSize.of_le (hw : 0 < w) (hw' : w ≤ 16384) (hh : 0 < h) (hh' : h ≤ 16384) :
    PictureSize w h := by
  have : w * h ≤ 16384 * 16384 := mul_le_mul hw' hh' hh.le (by norm_num)
  exact ⟨by omega, by omega, by omega⟩

theorem vp8GetInfo_size {n : ℕ} (he : vp8GetInfo d n = some (w, h)) : PictureSize w h := by
  unfold vp8GetInfo at he
  have hw : getLE16 d.bytes 6 &&& 0x3fff < 2 ^ 14 := Nat.and_lt_two_pow _ (by norm_num)
  have hh : getLE16 d.bytes 8 &&& 0x3fff < 2 ^ 14 := Nat.and_lt_two_pow _ (by norm_num)
  dsimp only at he
  split_ifs at he with _ _ _ _ _ _ h0
  obtain ⟨rfl, rfl⟩ := Prod.mk.inj (Option.some.inj he)
  exact .of_le (by omega) (by omega) (by omega) (by omega)

theorem vp8lGetInfo_size (he : vp8lGetInfo d = some (w, h, alpha)) : PictureSize w h := by
  unfold vp8lGetInfo at he
  have hw : getLE32 d.bytes 1 &&& 0x3fff < 2 ^ 14 := Nat.and_lt_two_pow _ (by norm_num)
  have hh : (getLE32 d.bytes 1 >>> 14) &&& 0x3fff < 2 ^ 14 := Nat.and_lt_two_pow _ (by norm_num)
  dsimp only at he
  split_ifs at he
  obtain ⟨rfl, he'⟩ := Prod.mk.inj (Option.some.inj he)
  obtain ⟨rfl, -⟩ := Prod.mk.inj he'
  exact .of_le (by omega) (by omega) (by omega) (by omega)

theorem parseVP8X_size (he : parseVP8X d = .ok (d', some v)) : PictureSize v.width v.height := by
  unfold parseVP8X at he
  have hw := getLE24_lt d.bytes 12
  have hh := getLE24_lt d.bytes 15
  split_ifs at he with _ _ _ _ harea
  · obtain ⟨-, hv⟩ := Prod.mk.inj (Except.ok.inj he)
    obtain rfl := Option.some.inj hv
    refine ⟨by dsimp only; omega, by dsimp only; omega, ?_⟩
    rw [maxImageArea] at harea
    dsimp only
    exact_mod_cast not_le.mp harea
  · cases (Prod.mk.inj (Except.ok.inj he)).2

/-- What passes the end of the parser. -/
theorem returnWidthHeight_ok {status : VP8StatusCode} {vp8x : Bool} {headers : Option Bool}
    (he : returnWidthHeight status vp8x headers w h f alpha = (.ok, g)) :
    (g.width = w ∧ g.height = h ∧ g.hasAnimation = f.hasAnimation) ∧
      (status = .ok ∨ vp8x = true) := by
  unfold returnWidthHeight at he
  split_ifs at he with hs
  · obtain ⟨-, rfl⟩ := Prod.mk.inj he
    exact ⟨⟨rfl, rfl, rfl⟩, hs.imp id fun h => h.2.1⟩
  · obtain ⟨rfl, -⟩ := Prod.mk.inj he
    exact absurd (Or.inl rfl) hs

theorem parseVP8Header_error {all : Bool} {riffSize : ℕ} {status : VP8StatusCode}
    (he : parseVP8Header d all riffSize = .error status) : status ≠ .ok := by
  unfold parseVP8Header at he
  dsimp only at he
  split_ifs at he <;> cases he <;> simp

theorem parseImageHeader_size {all : Bool} {riffSize : ℕ} {vp8x : Option VP8XChunk}
    {headers : Option Bool}
    (hx : vp8x.isSome → PictureSize (vp8x.elim 0 VP8XChunk.width) (vp8x.elim 0 VP8XChunk.height))
    (he : parseImageHeader d all riffSize vp8x headers f alpha = (.ok, g)) :
    PictureSize g.width g.height ∧ g.hasAnimation = f.hasAnimation := by
  -- An early end keeps the size of the VP8X chunk.
  have early : ∀ status, status ≠ .ok →
      returnWidthHeight status vp8x.isSome headers (vp8x.elim 0 VP8XChunk.width) (vp8x.elim 0 VP8XChunk.height) f
        alpha = (.ok, g) →
        PictureSize g.width g.height ∧ g.hasAnimation = f.hasAnimation := fun status hbad hr => by
    obtain ⟨⟨hw, hh, ha⟩, hs⟩ := returnWidthHeight_ok hr
    rw [hw, hh]
    exact ⟨hx (hs.resolve_left hbad), ha⟩
  unfold parseImageHeader at he
  split at he
  · rename_i status hv
    exact early status (parseVP8Header_error hv) he
  · dsimp only at he
    -- A frame header that is read has a size of its own.
    have read : ∀ {w h a}, PictureSize w h →
        (if vp8x.isSome ∧ (vp8x.elim 0 VP8XChunk.width ≠ w ∨ vp8x.elim 0 VP8XChunk.height ≠ h) then
            (VP8StatusCode.bitstreamError, { f with hasAlpha := a })
          else returnWidthHeight .ok vp8x.isSome headers w h { f with hasAlpha := a } alpha) = (.ok, g) →
        PictureSize g.width g.height ∧ g.hasAnimation = f.hasAnimation := fun {w h a} hp he => by
      split_ifs at he
      · cases (Prod.mk.inj he).1
      · obtain ⟨⟨hw, hh, ha⟩, -⟩ := returnWidthHeight_ok he
        rw [hw, hh]
        exact ⟨hp, ha⟩
    split_ifs at he with hpay hlossless hshort hshort
    · cases (Prod.mk.inj he).1
    · exact early _ (by simp) he
    · split at he
      · cases (Prod.mk.inj he).1
      · rename_i w h a himage
        exact read (vp8lGetInfo_size himage) he
    · exact early _ (by simp) he
    · split at he
      · cases (Prod.mk.inj he).1
      · rename_i w h a himage
        obtain ⟨p, hp, hpe⟩ := Option.map_eq_some_iff.mp himage
        cases hpe
        exact read (vp8GetInfo_size hp) he

theorem parseRIFF_error {all : Bool} {status : VP8StatusCode} (he : parseRIFF d all = .error status) :
    status ≠ .ok := by
  unfold parseRIFF at he
  split_ifs at he <;> cases he <;> simp

theorem parseVP8X_error {status : VP8StatusCode} (he : parseVP8X d = .error status) : status ≠ .ok := by
  unfold parseVP8X at he
  split_ifs at he <;> cases he <;> simp

/-- What the headers of an animation say. -/
structure AnimationHeader (data : WebPData) (g : WebPBitstreamFeatures) : Prop where
  vp8x : ∃ d₁ n d₂ v, parseRIFF data false = .ok (d₁, n) ∧ 0 < n ∧ parseVP8X d₁ = .ok (d₂, some v) ∧
    hasFlag v.flags animationFlag ∧ g.width = v.width ∧ g.height = v.height

/-- What `WebPGetFeatures` accepts is a picture, or an animation by its VP8X
chunk. -/
theorem features_facts {data : WebPData} (he : webPGetFeatures data = (.ok, g)) :
    PictureSize g.width g.height ∧ (g.hasAnimation → AnimationHeader data g) := by
  unfold webPGetFeatures parseHeadersInternal at he
  dsimp only at he
  split_ifs at he with hsmall
  · cases (Prod.mk.inj he).1
  split at he
  · rename_i status hriff
    exact absurd (Prod.mk.inj he).1 (parseRIFF_error hriff)
  · rename_i d₁ n hriff
    split at he
    · rename_i status hx
      exact absurd (Prod.mk.inj he).1 (parseVP8X_error hx)
    · rename_i d₂ vp8x hx
      have hsize : vp8x.isSome → PictureSize (vp8x.elim 0 VP8XChunk.width)
          (vp8x.elim 0 VP8XChunk.height) := fun hs => by
        obtain ⟨v, rfl⟩ := Option.isSome_iff_exists.mp hs
        exact parseVP8X_size hx
      have hflag : hasFlag (vp8x.elim 0 VP8XChunk.flags) animationFlag → vp8x.isSome := by
        cases vp8x
        · intro h
          exact absurd h (by decide)
        · exact fun _ => rfl
      split_ifs at he with h1 h2 h3 h4
      · cases (Prod.mk.inj he).1
      · -- The VP8X chunk of an animation says it all.
        obtain ⟨⟨hw, hh, ha⟩, -⟩ := returnWidthHeight_ok he
        rw [hw, hh]
        refine ⟨hsize h2.1, fun _ => ?_⟩
        obtain ⟨v, rfl⟩ := Option.isSome_iff_exists.mp h2.1
        have hn : 0 < n := by
          by_contra h0
          exact h1 ⟨by simpa using h0, rfl⟩
        exact ⟨d₁, n, d₂, v, hriff, hn, hx, h2.2.1, hw, hh⟩
      all_goals
        have still : ∀ {b}, g.hasAnimation = b → b = hasFlag (vp8x.elim 0 VP8XChunk.flags) animationFlag →
            g.hasAnimation → AnimationHeader data g := fun hg hb ha => by
          rw [hg, hb] at ha
          exact absurd ⟨hflag ha, ha, rfl⟩ h2
      · obtain ⟨⟨hw, hh, ha⟩, hs⟩ := returnWidthHeight_ok he
        rw [hw, hh]
        exact ⟨hsize (hs.resolve_left (by simp)), still ha rfl⟩
      · split at he
        · obtain ⟨hp, ha⟩ := parseImageHeader_size hsize he
          exact ⟨hp, still ha rfl⟩
        · rename_i status _ alpha hbad _
          obtain ⟨⟨hw, hh, ha⟩, hs⟩ := returnWidthHeight_ok he
          rw [hw, hh]
          exact ⟨hsize (hs.resolve_left hbad), still ha rfl⟩
      · obtain ⟨hp, ha⟩ := parseImageHeader_size hsize he
        exact ⟨hp, still ha rfl⟩

end

/-! ### One size

`WebPGetFeatures` and `WebPDecode` read the headers apart, the one without, the
other with all data required; they agree on the size. -/

section

variable {d : WebPData} {f g : WebPBitstreamFeatures} {alpha : Bool}

theorem parseRIFF_all {all : Bool} {r : WebPData × ℕ} (he : parseRIFF d all = .ok r) :
    parseRIFF d false = .ok r := by
  unfold parseRIFF at he ⊢
  split_ifs at he ⊢ <;> simp_all

theorem parseVP8Header_all {all : Bool} {n : ℕ} {r : WebPData × ℕ × Bool}
    (he : parseVP8Header d all n = .ok r) : parseVP8Header d false n = .ok r := by
  unfold parseVP8Header at he ⊢
  dsimp only at he ⊢
  split_ifs at he ⊢ <;> simp_all

/-- The size in the frame header. -/
def frameHeaderSize (d : WebPData) (n : ℕ) : Option (ℤ × ℤ) :=
  match parseVP8Header d false n with
  | .error _ => none
  | .ok (d, size, isLossless) =>
    if isLossless then (vp8lGetInfo d).map fun (w, h, _) => (w, h) else vp8GetInfo d size

/-- The size of a file: that of its VP8X chunk, else of its frame header. -/
def HeaderSize (data : WebPData) (w h : ℤ) : Prop :=
  ∃ d₁ n d₂ vp8x, parseRIFF data false = .ok (d₁, n) ∧ parseVP8X d₁ = .ok (d₂, vp8x) ∧
    (∀ v, vp8x = some v → w = v.width ∧ h = v.height) ∧
    (vp8x = none → frameHeaderSize (if n = 0 ∧ isTag d₂.bytes 0 tagALPH then
      (parseOptionalChunks d₂ n).2.1 else d₂) n = some (w, h))

theorem HeaderSize.unique {data : WebPData} {w h w' h' : ℤ} (hs : HeaderSize data w h)
    (hs' : HeaderSize data w' h') : w = w' ∧ h = h' := by
  obtain ⟨d₁, n, d₂, vp8x, hriff, hx, hsome, hnone⟩ := hs
  obtain ⟨d₁', n', d₂', vp8x', hriff', hx', hsome', hnone'⟩ := hs'
  obtain ⟨rfl, rfl⟩ := Prod.mk.inj (Except.ok.inj (hriff.symm.trans hriff'))
  obtain ⟨rfl, rfl⟩ := Prod.mk.inj (Except.ok.inj (hx.symm.trans hx'))
  cases vp8x with
  | some v =>
    obtain ⟨rfl, rfl⟩ := hsome v rfl
    obtain ⟨rfl, rfl⟩ := hsome' v rfl
    exact ⟨rfl, rfl⟩
  | none => exact Prod.mk.inj (Option.some.inj ((hnone rfl).symm.trans (hnone' rfl)))

/-- What the frame header adds. -/
theorem parseImageHeader_frame {all : Bool} {n : ℕ} {vp8x : Option VP8XChunk} {headers : Option Bool}
    (he : parseImageHeader d all n vp8x headers f alpha = (.ok, g)) :
    (∀ v, vp8x = some v → g.width = v.width ∧ g.height = v.height) ∧
      (vp8x = none → frameHeaderSize d n = some (g.width, g.height)) := by
  have early : ∀ status, status ≠ .ok →
      returnWidthHeight status vp8x.isSome headers (vp8x.elim 0 VP8XChunk.width) (vp8x.elim 0 VP8XChunk.height) f
        alpha = (.ok, g) →
      (∀ v, vp8x = some v → g.width = v.width ∧ g.height = v.height) ∧
        (vp8x = none → frameHeaderSize d n = some (g.width, g.height)) := fun status hbad hr => by
    obtain ⟨⟨hw, hh, -⟩, hs⟩ := returnWidthHeight_ok hr
    refine ⟨fun v hv => ?_, fun hnone => ?_⟩
    · subst hv
      exact ⟨hw, hh⟩
    · have := hs.resolve_left hbad
      simp [hnone] at this
  unfold parseImageHeader at he
  split at he
  · rename_i status hv
    exact early status (parseVP8Header_error hv) he
  · rename_i d' size isLossless hv
    have hv' := parseVP8Header_all hv
    have read : ∀ {w h a}, frameHeaderSize d n = some (w, h) →
        (if vp8x.isSome ∧ (vp8x.elim 0 VP8XChunk.width ≠ w ∨ vp8x.elim 0 VP8XChunk.height ≠ h) then
            (VP8StatusCode.bitstreamError, { f with hasAlpha := a })
          else returnWidthHeight .ok vp8x.isSome headers w h { f with hasAlpha := a } alpha) = (.ok, g) →
        (∀ v, vp8x = some v → g.width = v.width ∧ g.height = v.height) ∧
          (vp8x = none → frameHeaderSize d n = some (g.width, g.height)) := fun {w h a} hf he => by
      split_ifs at he with hcanvas
      · cases (Prod.mk.inj he).1
      · obtain ⟨⟨hw, hh, -⟩, -⟩ := returnWidthHeight_ok he
        rw [hw, hh]
        refine ⟨fun v hv => ?_, fun _ => hf⟩
        subst hv
        by_contra hne
        exact hcanvas ⟨rfl, by
          by_contra hor
          push Not at hor
          exact hne ⟨hor.1.symm, hor.2.symm⟩⟩
    dsimp only at he
    split_ifs at he with hpay hlossless hshort hshort
    · cases (Prod.mk.inj he).1
    · exact early _ (by simp) he
    · split at he
      · cases (Prod.mk.inj he).1
      · rename_i w h a himage
        exact read (by simp [frameHeaderSize, hv', hlossless, himage]) he
    · exact early _ (by simp) he
    · split at he
      · cases (Prod.mk.inj he).1
      · rename_i w h a himage
        obtain ⟨p, hp, hpe⟩ := Option.map_eq_some_iff.mp himage
        cases hpe
        exact read (by simp [frameHeaderSize, hv', hlossless, hp]) he

theorem parseHeaders_headerSize {data : WebPData} {headers : Option Bool}
    (he : parseHeadersInternal data headers = (.ok, g)) : HeaderSize data g.width g.height := by
  unfold parseHeadersInternal at he
  dsimp only at he
  split_ifs at he with hsmall
  · cases (Prod.mk.inj he).1
  split at he
  · rename_i status hriff
    exact absurd (Prod.mk.inj he).1 (parseRIFF_error hriff)
  · rename_i d₁ n hriff
    have hriff' := parseRIFF_all hriff
    split at he
    · rename_i status hx
      exact absurd (Prod.mk.inj he).1 (parseVP8X_error hx)
    · rename_i d₂ vp8x hx
      refine ⟨d₁, n, d₂, vp8x, hriff', hx, ?_⟩
      -- Every early end keeps the size of the VP8X chunk.
      have keep : ∀ {w h : ℤ}, g.width = w → g.height = h → w = vp8x.elim 0 VP8XChunk.width →
          h = vp8x.elim 0 VP8XChunk.height → vp8x.isSome →
          (∀ v, vp8x = some v → g.width = v.width ∧ g.height = v.height) ∧
          (vp8x = none → frameHeaderSize (if n = 0 ∧ isTag d₂.bytes 0 tagALPH then
            (parseOptionalChunks d₂ n).2.1 else d₂) n = some (g.width, g.height)) :=
        fun hw hh ew eh hs => by
          obtain ⟨v, rfl⟩ := Option.isSome_iff_exists.mp hs
          refine ⟨?_, fun hno => by cases hno⟩
          rintro v' hv'
          cases hv'
          exact ⟨hw.trans ew, hh.trans eh⟩
      have image : ∀ {d₃ headers f alpha all}, (vp8x = none → d₃ = if n = 0 ∧ isTag d₂.bytes 0 tagALPH then
            (parseOptionalChunks d₂ n).2.1 else d₂) →
          parseImageHeader d₃ all n vp8x headers f alpha = (.ok, g) →
          (∀ v, vp8x = some v → g.width = v.width ∧ g.height = v.height) ∧
          (vp8x = none → frameHeaderSize (if n = 0 ∧ isTag d₂.bytes 0 tagALPH then
            (parseOptionalChunks d₂ n).2.1 else d₂) n = some (g.width, g.height)) :=
        fun {d₃ headers f alpha all} hd hi => by
          obtain ⟨hsome, hnone⟩ := parseImageHeader_frame hi
          exact ⟨hsome, fun hno => hd hno ▸ hnone hno⟩
      split_ifs at he with h1 h2 h3 h4
      · cases (Prod.mk.inj he).1
      · obtain ⟨⟨hw, hh, -⟩, -⟩ := returnWidthHeight_ok he
        exact keep hw hh rfl rfl h2.1
      · obtain ⟨⟨hw, hh, -⟩, hs⟩ := returnWidthHeight_ok he
        exact keep hw hh rfl rfl (hs.resolve_left (by simp))
      · split at he
        · rename_i d₃ alpha hopt
          refine image (fun hnone => ?_) he
          subst hnone
          simp only [Option.isSome_none, Bool.false_eq_true, and_false, Bool.not_false, false_or,
            true_and, Bool.not_eq_true', decide_eq_false_iff_not, not_lt, Nat.le_zero] at h4
          rw [if_pos h4, hopt]
        · rename_i status _ alpha hbad _
          obtain ⟨⟨hw, hh, -⟩, hs⟩ := returnWidthHeight_ok he
          exact keep hw hh rfl rfl (hs.resolve_left hbad)
      · refine image (fun hnone => ?_) he
        subst hnone
        simp only [Option.isSome_none, Bool.false_eq_true, and_false, Bool.not_false, false_or,
          true_and, Bool.not_eq_true', decide_eq_false_iff_not, not_lt, Nat.le_zero] at h4
        rw [if_neg h4]

/-- `WebPDecode` decodes the size that `WebPGetFeatures` reported. -/
theorem headers_agree {data : WebPData} (hf : webPGetFeatures data = (.ok, f))
    (hg : webPParseHeaders data = (.ok, g)) : f.width = g.width ∧ f.height = g.height := by
  have hg' : parseHeadersInternal data (some true) = (.ok, g) := by
    unfold webPParseHeaders at hg
    split at hg
    rename_i status f' he
    split_ifs at hg with hanim
    · cases (Prod.mk.inj hg).1
    · rw [he, hg]
  exact (parseHeaders_headerSize hf).unique (parseHeaders_headerSize hg')

end

/-! ### What decode leaves -/

/-- A decoder that `decode` has filled in. -/
structure DecoderFacts (d : WebPDecoder) (bytes : WebPData) : Prop where
  size : PictureSize d.width d.height
  features : ∃ f, webPGetFeatures bytes = (.ok, f) ∧ d.width = f.width ∧ d.height = f.height ∧
    d.hasAlpha = f.hasAlpha ∧ d.hasAnimation = f.hasAnimation
  source : d.srcBytes = bytes
  anim : d.hasAnimation → ∃ dmux, webPDemux bytes = some dmux ∧ d.totalFrames = i32 (u32 dmux.numFrames) ∧
    d.totalFrames ≠ 0 ∧
    d.frameDelays = (List.range d.totalFrames.toNat).map (WebPDecoder.frameDelayOf dmux)
  still : d.hasAnimation = false → d.totalFrames = 1

theorem decode_facts {grants : Grants} {d₀ d : WebPDecoder} {bytes : WebPData}
    {heap heap' : Heap ObjectKind} (h : d₀.decode grants bytes heap = (.returned true, d, heap')) :
    DecoderFacts d bytes ∧ d.id = d₀.id ∧ d.animDecoder = d₀.animDecoder ∧
      d.animScaleW = d₀.animScaleW ∧ d.animScaleH = d₀.animScaleH := by
  unfold WebPDecoder.decode at h
  split at h
  · rename_i features hf
    obtain ⟨hsize, -⟩ := features_facts hf
    dsimp only at h
    split_ifs at h with hanim
    · split at h
      · cases h
      · rename_i demuxId demux heap₁ hd
        split_ifs at h with hzero
        · cases h
        · split at h
          · cases h
          · cases h
            exact ⟨⟨hsize, ⟨features, hf, rfl, rfl, rfl, rfl⟩, rfl,
              fun _ => ⟨demux, webPDemuxNew_some hd, rfl,
              hzero, rfl⟩, fun hno => absurd hno (by simp [hanim])⟩, rfl, rfl, rfl, rfl⟩
    · cases h
      exact ⟨⟨hsize, ⟨features, hf, rfl, rfl, rfl, rfl⟩, rfl, fun ha => absurd ha hanim, fun _ => rfl⟩,
        rfl, rfl, rfl, rfl⟩
  · cases h

end WebPlugin
