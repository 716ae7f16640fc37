/-
# The plug-in

`src/plugin/WebPlugin.cpp`, with the exports of `src/plugin/ID_WebP.cpp`: what
the host calls. `OpenImage` makes a `WebPDecoder`, which is the handle;
`PageDecode` decodes a frame into a DIB that the host then owns; `CloseImage`
deletes the decoder. A `Process` is the plug-in with its open handles and the
DIBs it has handed out; `Process.call` is one call of the host.
-/
import WebPlugin.Decoder

namespace WebPlugin

open Memory Ledger Words

/-! ### Data -/

/-- The `IDE_*` codes the plug-in uses. -/
inductive IDECode
  | ok | error | invalidParam | unknownFormat | corruptData | tooBig | noPage | fatalError
  deriving DecidableEq, Repr

/-- `ID_SourceInfo`: whether the name is virtual, how the host's
`pfFillBuffer` answers when there is one (its result and the new position), and
the bytes in `pBuf`. -/
structure IDSourceInfo where
  virtualFilename : Bool := false
  fillBuffer : Option (Bool × ℕ) := none
  buf : WebPData

/-- `ID_DecodeParam`, the fields read. -/
structure IDDecodeParam where
  nPage : ℤ
  nWidth : ℤ
  nHeight : ℤ
  deriving DecidableEq, Repr

/-- `ID_ImageOut`: the DIB and the rectangle `(0, 0, right, bottom)`. -/
structure IDImageOut where
  hdib : Option Block := none
  right : ℤ := 0
  bottom : ℤ := 0

/-- The end of a call. -/
abbrev Ended := WebPDecoder.Ended

/-! ### OpenImage -/

/-- What `OpenImage` leaves: the code, what `phs` points to, the new decoder. -/
structure Opened where
  code : Ended IDECode
  phs : Option (Option ℕ)
  decoder : Option WebPDecoder
  heap : Heap ObjectKind

/-- `OpenImage`. `phs` is NULL or points to a handle. -/
def openImage (grants : Grants) (psi : Option IDSourceInfo) (phs : Option (Option ℕ))
    (heap : Heap ObjectKind) : Opened :=
  match psi, phs with
  | some psi, some _ =>
    -- Fill the entire buffer if this is a virtual file
    let unfilled : Bool := psi.virtualFilename ∧ 0 < psi.buf.size ∧
      psi.fillBuffer.any fun (done, newPos) => !done || newPos != psi.buf.size
    if unfilled then ⟨.returned .corruptData, phs, none, heap⟩
    else match heap.alloc (grants .decoder) .decoder 0 with
    | (none, heap) => ⟨.returned .fatalError, phs, none, heap⟩
    | (some id, heap) =>
      match WebPDecoder.decode grants { id := id } psi.buf heap with
      | (.badAlloc, _, heap) => ⟨.badAlloc, phs, none, heap⟩
      | (.returned false, d, heap) => ⟨.returned .unknownFormat, phs, none, d.delete heap⟩
      | (.returned true, d, heap) => ⟨.returned .ok, some (some d.id), some d, heap⟩
  | _, _ => ⟨.returned .invalidParam, phs, none, heap⟩

/-! ### PageDecode -/

/-- `sizeof(BITMAPINFOHEADER)`. -/
def bitmapInfoHeaderSize : ℕ := 40

/-- `dstStride`: 4-byte aligned. -/
def dstStride (dstW : ℤ) : ℤ := i32 ((i32 (dstW * 3 + 3)).tdiv 4 * 4)

/-- `imageSize`. -/
def imageSize (dstW dstH : ℤ) : ℕ := u32 (dstStride dstW * dstH)

/-- `dibSize`. -/
def dibSize (dstW dstH : ℤ) : ℕ := (bitmapInfoHeaderSize + imageSize dstW dstH) % 4294967296

/-- The fields of the `BITMAPINFOHEADER`: `biSize`, `biWidth`, `biHeight`,
`biPlanes`, `biBitCount`, `biCompression`, `biSizeImage`. -/
def fillHeader (dib : Buf) (dstW dstH : ℤ) : Buf :=
  let dib := dib.store32 0 bitmapInfoHeaderSize
  let dib := dib.store32 4 (u32 dstW)
  let dib := dib.store32 8 (u32 dstH)
  let dib := dib.writeRow 12 2 (Buf.byteOf 1)
  let dib := dib.writeRow 14 2 (Buf.byteOf 24)
  let dib := dib.store32 16 0
  dib.store32 20 (imageSize dstW dstH)

/-- The end of the last field of the header that is filled in. -/
def headerFilled : ℕ := 24

/-- The zeroed block `GlobalAlloc` returns. -/
def newDib (dstW dstH : ℤ) : Buf := ⟨dibSize dstW dstH, fun _ => 0, Nat.mod_lt _ (by norm_num)⟩

/-- What `PageDecode` leaves. -/
structure Paged where
  code : IDECode
  pio : Option IDImageOut
  decoder : Option WebPDecoder
  heap : Heap ObjectKind
  strays : Strays := {}

/-- `PageDecode`, once the page is known: the size, the DIB, the frame. -/
def pageDecodeInto (codec : Codec) (env : Env) (d : WebPDecoder) (pdp : IDDecodeParam)
    (pio : IDImageOut) (heap : Heap ObjectKind) : Paged :=
  let (dstW, dstH) := d.resolveOutputSize pdp.nWidth pdp.nHeight
  match heap.alloc (env.grants .dib) .dib (dibSize dstW dstH) with
  | (none, heap) => ⟨.tooBig, some pio, some d, heap, {}⟩
  | (some hDIB, heap) =>
    let dib := fillHeader (newDib dstW dstH) dstW dstH
    -- Decode pixel data into buffer after the BITMAPINFOHEADER
    let got := d.getFrame codec env pdp.nPage dib bitmapInfoHeaderSize (dstStride dstW) dstW dstH heap
    let strays := { got.strays with header := dib.size < headerFilled }
    if got.ok then
      ⟨.ok, some { hdib := some ⟨hDIB, got.dst⟩, right := dstW, bottom := dstH }, some got.decoder,
        got.heap, strays⟩
    else ⟨.corruptData, some pio, some got.decoder, got.heap.release hDIB, strays⟩

/-- `PageDecode`. -/
def pageDecode (codec : Codec) (env : Env) (hs : Option WebPDecoder) (pdp : Option IDDecodeParam)
    (pio : Option IDImageOut) (heap : Heap ObjectKind) : Paged :=
  match hs, pdp, pio with
  | some d, some pdp, some pio =>
    if pdp.nPage < 0 ∨ d.getFrameCount ≤ pdp.nPage then ⟨.noPage, some pio, some d, heap, {}⟩
    else pageDecodeInto codec env d pdp pio heap
  | _, _, _ => ⟨.invalidParam, pio, hs, heap, {}⟩

/-- `CloseImage`. Deleting a null pointer does nothing. -/
def closeImage (hs : Option WebPDecoder) (heap : Heap ObjectKind) : Heap ObjectKind :=
  match hs with
  | none => heap
  | some d => d.delete heap

/-! ### The process -/

/-- `g_pWebPlugin` (null or the plug-in object), the decoders of the open handles,
the DIBs handed out. -/
structure Process where
  plugin : Option ℕ
  heap : Heap ObjectKind
  handles : List WebPDecoder
  dibs : List ℕ

namespace Process

/-- A call of the host, with the pointers it passes. -/
inductive Call
  | openImage (psi : Option IDSourceInfo) (phs : Option (Option ℕ))
  | pageDecode (hs : Option ℕ) (pdp : Option IDDecodeParam) (pio : Option IDImageOut)
  | closeImage (hs : Option ℕ)

/-- What a call leaves: the process, the code, and what the out-pointers of the
call point to. -/
structure Result where
  process : Process
  code : Ended IDECode
  phs : Option (Option ℕ) := none
  pio : Option IDImageOut := none
  strays : Strays := {}

/-- The decoder behind a handle. -/
def decoderOf (p : Process) (hs : Option ℕ) : Option WebPDecoder :=
  hs.bind fun h => p.handles.find? (·.id = h)

/-- The handles with the one of this name replaced. -/
def setHandle (p : Process) (d : WebPDecoder) : List WebPDecoder :=
  p.handles.map fun e => if e.id = d.id then d else e

/-- `IDP_OpenImage`, `IDP_PageDecode`, `IDP_CloseImage`. -/
def call (codec : Codec) (env : Env) (p : Process) : Call → Result
  | .openImage psi phs =>
    if p.plugin = none then { process := p, code := .returned .error, phs := phs }
    else
      let r := WebPlugin.openImage env.grants psi phs p.heap
      { process := { p with heap := r.heap, handles := r.decoder.toList ++ p.handles }
        code := r.code
        phs := r.phs }
  | .pageDecode hs pdp pio =>
    if p.plugin = none then { process := p, code := .returned .error, pio := pio }
    else
      let r := WebPlugin.pageDecode codec env (p.decoderOf hs) pdp pio p.heap
      let dib := if r.code = .ok then (r.pio.bind IDImageOut.hdib).map Block.id else none
      { process := { p with
          heap := r.heap
          handles := r.decoder.elim p.handles p.setHandle
          dibs := dib.toList ++ p.dibs }
        code := .returned r.code
        pio := r.pio
        strays := r.strays }
  | .closeImage hs =>
    if p.plugin = none then { process := p, code := .returned .error }
    else
      { process := { p with
          heap := WebPlugin.closeImage (p.decoderOf hs) p.heap
          handles := p.handles.filter fun d => some d.id ≠ hs }
        code := .returned .ok }

end Process

end WebPlugin
