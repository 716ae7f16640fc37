/-
# WebPDecode

`WebPDecode` and `DecodeInto` of `src/codec/libwebp/src/dec/webp_dec.c`. The
two codecs behind them are a parameter: when decoding succeeds the pixels are a
function of the data, the options and the colour mode (`Codec`); a call may
also fail, before or after the output buffer is set up, and then leaves behind
any bytes (`CodecRun`). The sizes are the code's own.
-/
import WebPlugin.DecBuffer

namespace WebPlugin

open Memory Ledger

/-- What a codec computes: byte `i` of row `y` of the decoded picture. -/
structure Codec where
  sample : WebPData → WebPDecoderOptions → WebPCspMode → ℕ → ℕ → UInt8

/-- How one call of a codec goes: whether the frame header is accepted, and
whether the picture decodes; if not, which bytes of the buffer it has written. -/
structure CodecRun where
  header : Bool
  image : Option (Rows → ℕ → Option UInt8)

/-- What a call of this program depends on and does not decide. -/
structure Env where
  grants : Grants
  garbage : ℕ → UInt8
  run : CodecRun

/-- `WebPDecoderConfig`. Its `input` is not kept: only the slow-memory path
reads it. -/
structure WebPDecoderConfig where
  output : WebPDecBuffer := {}
  options : WebPDecoderOptions := {}
  deriving DecidableEq, Repr

/-- What `WebPDecode` leaves: the buffer, the memory behind it and the heap;
`rows` are the rows of that memory the codec was given to write, if it came to
that. -/
structure Decoded where
  status : VP8StatusCode
  output : WebPDecBuffer
  mem : Buf
  heap : Heap ObjectKind
  rows : Option Rows := none

/-- The rows do not all lie in the memory behind the buffer. -/
def Decoded.stray (d : Decoded) : Bool := d.rows.any fun r => !decide (r.Inside d.mem.size)

/-- The end of `DecodeInto` after an error. -/
def Decoded.failed (status : VP8StatusCode) (output : WebPDecBuffer) (mem : Buf)
    (heap : Heap ObjectKind) (rows : Option Rows := none) : Decoded :=
  match webPFreeDecBuffer output heap with
  | (output, heap) => ⟨status, output, mem, heap, rows⟩

/-- `DecodeInto`. Width and height are those of the frame header, which the
codecs read again. -/
def decodeInto (codec : Codec) (env : Env) (data : WebPData) (config : WebPDecoderConfig) (mem : Buf)
    (heap : Heap ObjectKind) : Decoded :=
  match webPParseHeaders data with
  | (.ok, headers) =>
    if !env.run.header then .failed .bitstreamError config.output mem heap
    else
      match webPAllocateDecBuffer env.grants env.garbage headers.width headers.height config.options
          config.output mem heap with
      | (.ok, output, mem, heap) =>
        let rows := output.rows
        match env.run.image with
        | some write =>
          .failed .bitstreamError output (mem.overlay (write rows)) heap (some rows)
        | none =>
          ⟨.ok, if config.options.flip then webPFlipBuffer output else output,
            mem.writeRows rows (codec.sample data config.options output.colorspace), heap, some rows⟩
      | (status, output, mem, heap) => .failed status output mem heap
  | (status, _) => ⟨status, config.output, mem, heap, none⟩

/-- `WebPDecode`. -/
def webPDecode (codec : Codec) (env : Env) (data : WebPData) (config : WebPDecoderConfig) (mem : Buf)
    (heap : Heap ObjectKind) : Decoded :=
  match webPGetFeatures data with
  | (.ok, _) => decodeInto codec env data config mem heap
  | (.notEnoughData, _) => ⟨.bitstreamError, config.output, mem, heap, none⟩
  | (status, _) => ⟨status, config.output, mem, heap, none⟩

end WebPlugin
