/-
# The chunks behind the frames

The demuxer moves through a file chunk by chunk (`Walk`); the chunks inside an
ANMF chunk follow its 16 bytes. Each frame it keeps was stored from an ANMF
chunk on this walk, in the order of the file (`Accepted.stored`). Since each
takes its 24 bytes, their number is an `int` (`Accepted.count_lt`). A file that
`WebPGetFeatures` calls an animation is one for the demuxer too, on the same
canvas (`Accepted.of_features`).
-/
import WebPlugin.Pictures

namespace WebPlugin

open Memory Ledger Words

/-! ### The walk -/

/-- The chunk after the one at `p`. -/
def nextChunk (buf : ℕ → UInt8) (p : ℕ) : ℕ :=
  if getLE32 buf p = tagANMF then p + chunkHeaderSize + anmfChunkSize
  else p + chunkHeaderSize + padded buf p

/-- From chunk to chunk. -/
def Walk (buf : ℕ → UInt8) : ℕ → ℕ → Prop := Relation.ReflTransGen fun p q => q = nextChunk buf p

theorem Walk.skip {buf : ℕ → UInt8} {a p : ℕ} (h : Walk buf a p) (ht : getLE32 buf p ≠ tagANMF) :
    Walk buf a (p + chunkHeaderSize + padded buf p) :=
  h.tail (by rw [nextChunk, if_neg ht])

theorem Walk.enter {buf : ℕ → UInt8} {a p : ℕ} (h : Walk buf a p) (ht : getLE32 buf p = tagANMF) :
    Walk buf a (p + chunkHeaderSize + anmfChunkSize) :=
  h.tail (by rw [nextChunk, if_pos ht])

section

variable {n : ℤ} {s t : FrameStore}

theorem storeWhole_next_mem (h : storeWhole n s = .next t) :
    t.mem = (s.mem.skip chunkHeaderSize).skip (padded s.mem.buf s.mem.start) ∧
      getLE32 s.mem.buf s.mem.start ≠ tagANMF := by
  unfold storeWhole storeChunk at h
  dsimp only at h
  split_ifs at h with halph h0 hl himg h1 hm hok <;> cases h
  · exact ⟨rfl, by rw [halph]; decide⟩
  · refine ⟨rfl, fun ht => ?_⟩
    rw [ht] at himg
    exact absurd himg (by decide)

theorem storeFrameLoop_walk : ∀ {fuel : ℕ} {s : FrameStore}, storeFrameLoop n fuel s = (.ok, t) →
    Walk s.mem.buf s.mem.start t.mem.start ∧ t.mem.buf = s.mem.buf ∧ t.mem.riffEnd = s.mem.riffEnd ∧
      s.mem.start ≤ t.mem.start
  | 0, _, h => by cases h
  | fuel + 1, s, h => by
    obtain ⟨-, hd | hn | ⟨u, hn, hl⟩⟩ := storeFrameLoop_turn h
    · rw [storeWhole_done hd]
      exact ⟨.refl, rfl, rfl, le_rfl⟩
    · obtain ⟨hmem, ht⟩ := storeWhole_next_mem hn
      rw [hmem]
      exact ⟨Walk.skip .refl ht, rfl, rfl, by simp only [MemBuffer.skip]; omega⟩
    · obtain ⟨hmem, ht⟩ := storeWhole_next_mem hn
      obtain ⟨hw, hb, hr, hle⟩ := storeFrameLoop_walk hl
      rw [hmem] at hw hb hr hle
      exact ⟨(Walk.skip .refl ht).trans hw, hb, hr, by simp only [MemBuffer.skip] at hle; omega⟩

theorem storeFrame_walk {minSize : ℕ} {mem mem' : MemBuffer} {f g : Frame}
    (h : storeFrame n minSize mem f = (.ok, mem', g)) :
    Walk mem.buf mem.start mem'.start ∧ mem'.buf = mem.buf ∧ mem'.riffEnd = mem.riffEnd ∧
      mem.start ≤ mem'.start := by
  unfold storeFrame at h
  split_ifs at h
  · cases h
  · rcases hl : storeFrameLoop n (mem.dataSize + 1) { mem := mem, frame := f } with ⟨status, t⟩
    simp only [hl, Prod.mk.injEq] at h
    obtain ⟨rfl, rfl, rfl⟩ := h
    exact storeFrameLoop_walk hl

end

/-! ### The ANMF chunks -/

/-- A frame's header is that of the ANMF chunk at `o`, which lies on the walk. -/
structure AnmfChunk (buf : ℕ → UInt8) (o : ℕ) (f : Frame) : Prop where
  walk : Walk buf riffHeaderSize o
  tag : getLE32 buf o = tagANMF
  header : f.SameHeader (readAnmf ⟨o + chunkHeaderSize, 0, 0, 0, buf⟩)

/-- The frames read so far come from the ANMF chunks at `offs`, one behind the
other. -/
structure StoredFrom (buf : ℕ → UInt8) (riffEnd : ℕ) (offs : List ℕ) (d : WebPDemuxer) : Prop where
  bytes : d.mem.buf = buf
  riff : d.mem.riffEnd = riffEnd
  walk : Walk buf riffHeaderSize d.mem.start
  chunks : List.Forall₂ (AnmfChunk buf) offs d.frames
  order : offs.Pairwise fun o o' => o + 24 ≤ o'
  bounds : ∀ o ∈ offs, o + 24 ≤ d.mem.start ∧ o + 24 ≤ riffEnd

section

variable {buf : ℕ → UInt8} {riffEnd : ℕ} {offs : List ℕ} {d d' : WebPDemuxer}

/-- Moving on keeps the frames. -/
theorem StoredFrom.moved (h : StoredFrom buf riffEnd offs d) {mem : MemBuffer} (hb : mem.buf = buf)
    (hw : Walk buf riffHeaderSize mem.start) (hle : d.mem.start ≤ mem.start)
    (hr : mem.riffEnd = d.mem.riffEnd) : StoredFrom buf riffEnd offs { d with mem := mem } where
  bytes := hb
  riff := hr.trans h.riff
  walk := hw
  chunks := h.chunks
  order := h.order
  bounds o ho := by
    have := h.bounds o ho
    dsimp only
    omega

/-- The state of a parser after the header of an ANMF chunk. -/
theorem parseAnimationFrame_stored {size : ℕ} (h : StoredFrom buf riffEnd offs d)
    (ht : getLE32 buf d.mem.start = tagANMF)
    (hp : parseAnimationFrame { d with mem := d.mem.skip chunkHeaderSize } size = (.ok, d')) :
    ∃ offs', StoredFrom buf riffEnd offs' d' := by
  rcases hs : storeFrame (d.numFrames + 1) (u32 (size - anmfChunkSize))
    ((d.mem.skip chunkHeaderSize).skip anmfChunkSize) (readAnmf (d.mem.skip chunkHeaderSize)) with
    ⟨status, mem', f⟩
  unfold parseAnimationFrame at hp
  cases hn : newFrame (d.mem.skip chunkHeaderSize) anmfChunkSize size <;> simp only [hn, hs] at hp
  case needMoreData => cases hp
  case error => cases hp
  case ok =>
    have hriff : d.mem.start + chunkHeaderSize + anmfChunkSize ≤ d.mem.riffEnd := by
      have hvalid : (d.mem.skip chunkHeaderSize).sizeIsInvalid anmfChunkSize = false := by
        unfold newFrame at hn
        by_contra hne
        rw [if_pos (by simpa using hne)] at hn
        cases hn
      have h1 := of_decide_eq_false hvalid
      simp only [MemBuffer.skip, anmfChunkSize, chunkHeaderSize] at h1 ⊢
      omega
    split_ifs at hp with harea hpast hstore hstore
    · cases hp
    · exact absurd rfl hstore.1
    · cases hp
    all_goals
      obtain ⟨rfl, rfl⟩ := Prod.mk.inj hp
      obtain ⟨hw, hb, hr, hle⟩ := storeFrame_walk hs
      have hrest : Walk buf (d.mem.start + chunkHeaderSize + anmfChunkSize) mem'.start := by
        rw [← h.bytes]
        exact hw
      have hwalk : Walk buf riffHeaderSize mem'.start := (h.walk.enter ht).trans hrest
      have hle' : d.mem.start + 24 ≤ mem'.start := hle
      have hmoved := h.moved (hb.trans h.bytes) hwalk (by omega) hr
    · have hhead : f.SameHeader (readAnmf (d.mem.skip chunkHeaderSize)) :=
        (storeFrame_ok (.init _ _ _ rfl rfl rfl rfl) hs).2.2
      have hchunk : AnmfChunk buf d.mem.start f := ⟨h.walk, ht, by
        rw [← h.bytes]
        exact hhead⟩
      refine ⟨offs ++ [d.mem.start], hb.trans h.bytes, hr.trans h.riff, hwalk, ?_, ?_, ?_⟩
      · exact List.rel_append h.chunks (.cons hchunk .nil)
      · refine List.pairwise_append.mpr ⟨h.order, List.pairwise_singleton _ _, fun o ho o' ho' => ?_⟩
        rw [List.mem_singleton.mp ho']
        exact (h.bounds o ho).1
      · intro o ho
        rcases List.mem_append.mp ho with ho | ho
        · exact hmoved.bounds o ho
        · rw [List.mem_singleton.mp ho]
          exact ⟨hle', h.riff ▸ hriff⟩
    · exact ⟨offs, hmoved⟩

theorem parseVP8XChunk_stored {anim anim' : ℕ} (h : StoredFrom buf riffEnd offs d)
    (hanim : hasFlag d.featureFlags animationFlag)
    (hp : parseVP8XChunk { d with mem := d.mem.skip chunkHeaderSize } anim (getLE32 buf d.mem.start)
      (padded buf d.mem.start) = some (.ok, d', anim')) : ∃ offs', StoredFrom buf riffEnd offs' d' := by
  have hskip : getLE32 buf d.mem.start ≠ tagANMF → StoredFrom buf riffEnd offs
      { d with mem := (d.mem.skip chunkHeaderSize).skip (padded buf d.mem.start) } := fun ht =>
    h.moved h.bytes (h.walk.skip ht) (by simp only [MemBuffer.skip]; omega) rfl
  unfold parseVP8XChunk at hp
  dsimp only at hp
  split_ifs at hp with h1 h2 himg h3 _ _ h4 h5 h6 hanmf
  · exact absurd (.inr hanim) himg
  · cases hp
  · cases hp
    have := hskip (by rw [h3]; decide)
    exact ⟨offs, this.bytes, this.riff, this.walk, this.chunks, this.order, this.bounds⟩
  · cases hp
    exact ⟨offs, hskip (by rw [h3]; decide)⟩
  · cases hp
  · rcases ha : parseAnimationFrame { d with mem := d.mem.skip chunkHeaderSize } (padded buf d.mem.start) with
      ⟨status, e⟩
    simp only [ha, Option.some.injEq, Prod.mk.injEq] at hp
    obtain ⟨rfl, rfl, rfl⟩ := hp
    exact parseAnimationFrame_stored h (by assumption) ha
  · cases hp
    exact ⟨offs, hskip (by assumption)⟩
  · cases hp

theorem parseVP8XChunksLoop_stored {d₀ : WebPDemuxer} (hanim : hasFlag d₀.featureFlags animationFlag) :
    ∀ {fuel anim : ℕ} {offs : List ℕ} {d : WebPDemuxer}, AnimInv d₀ d → StoredFrom buf riffEnd offs d →
      parseVP8XChunksLoop fuel d anim = (.ok, d') → ∃ offs', StoredFrom buf riffEnd offs' d'
  | 0, _, _, _, _, _, h => by cases h
  | fuel + 1, anim, offs, d, hi, hs, h => by
    have hmem : AnimInv d₀ { d with mem := d.mem.skip chunkHeaderSize } := hi.withMem rfl
    rw [parseVP8XChunksLoop] at h
    split_ifs at h
    · cases h
    · cases h
    · split at h
      · cases h
      · rename_i status e anim' hc
        rw [hs.bytes] at hc
        split_ifs at h with h1 h2 h3
        · obtain ⟨rfl, rfl⟩ := Prod.mk.inj h
          exact parseVP8XChunk_stored hs (hi.flags ▸ hanim) hc
        · cases h
        · subst h3
          obtain ⟨offs', hs'⟩ := parseVP8XChunk_stored hs (hi.flags ▸ hanim) hc
          exact parseVP8XChunksLoop_stored hanim (parseVP8XChunk_ok hmem hc) hs' h
        · exact absurd (Prod.mk.inj h).1 h3

end

/-! ### The file -/

section

variable {data : WebPData} {mem : MemBuffer} {d dmux : WebPDemuxer}

/-- What `ReadHeader` leaves. -/
theorem readHeader_ok (h : readHeader (.init data) = (.ok, mem)) :
    mem.buf = data.bytes ∧ mem.start = riffHeaderSize ∧ mem.riffEnd ≤ maxChunkPayload + chunkHeaderSize := by
  unfold readHeader at h
  dsimp only at h
  split_ifs at h with _ _ hsize
  all_goals cases h
  all_goals exact ⟨rfl, rfl, by dsimp only [MemBuffer.init] at hsize ⊢; omega⟩

/-- The fields of a VP8X file that its VP8X chunk gives. -/
theorem parseVP8XFile_header (h : parseVP8XFile (.init mem) = (.ok, d)) :
    d.featureFlags = (mem.buf (mem.start + chunkHeaderSize)).toNat ∧
      d.canvasWidth = 1 + getLE24 mem.buf (mem.start + chunkHeaderSize + 4) ∧
      d.canvasHeight = 1 + getLE24 mem.buf (mem.start + chunkHeaderSize + 7) := by
  unfold parseVP8XFile at h
  dsimp only at h
  split_ifs at h
  any_goals cases h
  have hi := parseVP8XChunksLoop_ok (AnimInv.refl rfl rfl rfl) h
  exact ⟨hi.flags, hi.width, hi.height⟩

theorem parseVP8XFile_stored (hstart : mem.start = riffHeaderSize)
    (hvp8x : getLE32 mem.buf mem.start = tagVP8X) (h : parseVP8XFile (.init mem) = (.ok, d))
    (hanim : hasFlag d.featureFlags animationFlag) : ∃ offs, StoredFrom mem.buf mem.riffEnd offs d := by
  unfold parseVP8XFile at h
  dsimp only at h
  split_ifs at h
  any_goals cases h
  rw [(parseVP8XChunksLoop_ok (AnimInv.refl rfl rfl rfl) h).flags] at hanim
  have hwalk : Walk mem.buf riffHeaderSize (mem.start + chunkHeaderSize + padded mem.buf mem.start) :=
    Walk.skip (hstart ▸ .refl) (by rw [hvp8x]; decide)
  exact parseVP8XChunksLoop_stored hanim (AnimInv.refl rfl rfl rfl)
    ⟨rfl, rfl, hwalk, .nil, .nil, fun o ho => absurd ho List.not_mem_nil⟩ h

/-- The chunks the frames of an accepted animation are stored from. -/
theorem Accepted.stored (h : Accepted data dmux) : ∃ offs,
    List.Forall₂ (AnmfChunk data.bytes) offs dmux.frames ∧ offs.Pairwise (fun o o' => o + 24 ≤ o') ∧
      ∀ o ∈ offs, o + 24 ≤ maxChunkPayload + chunkHeaderSize := by
  obtain ⟨mem, d, ⟨hr, htag⟩, hp, rfl, -⟩ := h.parsed
  obtain ⟨hbuf, hstart, hend⟩ := readHeader_ok hr
  obtain ⟨offs, hs⟩ := parseVP8XFile_stored hstart (eq_of_beq htag) hp h.animation
  exact ⟨offs, hbuf ▸ hs.chunks, hs.order, fun o ho => (hs.bounds o ho).2.trans hend⟩

/-- Positions 24 apart are few. -/
theorem length_of_apart : ∀ {l : List ℕ} {n : ℕ}, l.Pairwise (fun o o' => o + 24 ≤ o') →
    (∀ o ∈ l, n ≤ o ∧ o + 24 ≤ N) → n ≤ N → n + 24 * l.length ≤ N
  | [], _, _, _, hn => hn
  | a :: l, n, hp, hb, _ => by
    obtain ⟨hhead, htail⟩ := List.pairwise_cons.mp hp
    obtain ⟨hna, haN⟩ := hb a List.mem_cons_self
    have := length_of_apart htail (fun o ho => ⟨hhead o ho, (hb o (List.mem_cons_of_mem a ho)).2⟩) haN
    simp only [List.length_cons]
    omega

theorem Accepted.count_lt (h : Accepted data dmux) : 0 ≤ dmux.numFrames ∧ dmux.numFrames < 2147483648 := by
  obtain ⟨offs, hc, ho, hb⟩ := h.stored
  have hlen := hc.length_eq
  have := length_of_apart ho (fun o hm => ⟨Nat.zero_le o, hb o hm⟩) (Nat.zero_le _)
  have hcount := h.numbered.count
  unfold maxChunkPayload chunkHeaderSize at this
  omega

/-- The flag does not depend on the bytes above. -/
theorem hasFlag_getLE32 (b : ℕ → UInt8) (i : ℕ) :
    hasFlag (getLE32 b i) animationFlag = hasFlag (b i).toNat animationFlag := by
  have h : ∀ x, hasFlag x animationFlag = x.testBit 1 := fun x => by
    rw [hasFlag, animationFlag, show (2 : ℕ) = 2 ^ 1 from rfl, Nat.and_two_pow]
    cases x.testBit 1 <;> rfl
  rw [h, h]
  simp [getLE32, getLE16, Nat.testBit_or, Nat.testBit_shiftLeft]

/-- The RIFF header found by the one parser is found by the other. -/
theorem readHeader_of_riff {d₁ : WebPData} {n : ℕ} (h : parseRIFF data false = .ok (d₁, n)) (hn : 0 < n) :
    d₁.bytes = (fun i => data.bytes (riffHeaderSize + i)) ∧ ∀ mem, readHeader (.init data) ≠ (.error, mem) := by
  unfold parseRIFF at h
  split_ifs at h with hriff hwebp hsmall hbig hall
  · obtain ⟨rfl, rfl⟩ := Prod.mk.inj (Except.ok.inj h)
    refine ⟨rfl, fun mem => ?_⟩
    have hwebp' : isTag data.bytes 8 tagWEBP = true := by simpa using hwebp
    have hsize : ¬ (getLE32 data.bytes tagSize < chunkHeaderSize ∨
        maxChunkPayload < getLE32 data.bytes tagSize) := by
      unfold tagSize at *
      omega
    unfold readHeader
    simp only [MemBuffer.init, Nat.zero_add, hriff.2, hwebp', Bool.not_true, Bool.false_eq_true, or_self,
      if_false, hsize]
    split_ifs <;> simp
  · obtain ⟨-, rfl⟩ := Prod.mk.inj (Except.ok.inj h)
    exact absurd hn (lt_irrefl 0)

theorem parseVP8X_some {d₁ d₂ : WebPData} {v : VP8XChunk} (h : parseVP8X d₁ = .ok (d₂, some v)) :
    isTag d₁.bytes 0 tagVP8X ∧
      v = ⟨1 + getLE24 d₁.bytes 12, 1 + getLE24 d₁.bytes 15, getLE32 d₁.bytes 8⟩ := by
  unfold parseVP8X at h
  split_ifs at h with _ htag
  · obtain ⟨-, hv⟩ := Prod.mk.inj (Except.ok.inj h)
    exact ⟨htag, (Option.some.inj hv).symm⟩
  · cases (Prod.mk.inj (Except.ok.inj h)).2

/-- An animation by its features is one for the demuxer, on the same canvas. -/
theorem Accepted.of_features {f : WebPBitstreamFeatures} (hf : webPGetFeatures data = (.ok, f))
    (hanim : f.hasAnimation) (hd : webPDemux data = some dmux) :
    Accepted data dmux ∧ dmux.canvasWidth = f.width ∧ dmux.canvasHeight = f.height := by
  obtain ⟨d₁, n, d₂, v, hriff, hn, hx, hflag, hw, hh⟩ := (features_facts hf).2 hanim
  obtain ⟨hbytes, hnoerror⟩ := readHeader_of_riff hriff hn
  obtain ⟨htag, rfl⟩ := parseVP8X_some hx
  rw [hbytes] at htag hflag hw hh
  rw [hasFlag_getLE32] at hflag
  have htag' : getLE32 data.bytes riffHeaderSize = tagVP8X := eq_of_beq htag
  have hother : ∀ tag, tag ≠ tagVP8X → isTag data.bytes riffHeaderSize tag = false := fun tag hne => by
    rw [isTag, htag']
    simpa using hne.symm
  have hd' := hd
  unfold webPDemux at hd
  split_ifs at hd
  split at hd
  · rename_i mem hr
    exact absurd hr (hnoerror mem)
  · cases hd
  · rename_i mem hr
    obtain ⟨hbuf, hstart, -⟩ := readHeader_ok hr
    rw [hbuf, hstart, hother tagVP8 (by decide), hother tagVP8L (by decide)] at hd
    split_ifs at hd
    · rename_i h
      simp at h
    · obtain ⟨d, hp, rfl, -⟩ := checkParsed_ok hd
      obtain ⟨hflags, hcw, hch⟩ := parseVP8XFile_header hp
      rw [hbuf, hstart] at hflags hcw hch
      refine ⟨⟨hd', ?_⟩, hcw.trans hw.symm, hch.trans hh.symm⟩
      exact hflags ▸ hflag

end

end WebPlugin
