/-
# The exports

`src/plugin/ID_WebP.cpp` and `src/plugin/dllmain.cpp` with the info calls of
`src/plugin/WebPlugin.cpp`: all that a host can do with the plug-in. `IDP_Init`
makes the plug-in object, the other exports pass on to it, the host releases the
DIBs it has been given, and unloading the library deletes the object. The texts
behind `IDP_GetPlugInInfo` and the dialog of `IDP_ShowPlugInDialog` are left out:
the one points into the plug-in object, the other changes nothing.

A `Session` is a run of such calls by a host that uses the handles it was given
until it closes them, with the `Book` the host keeps. Two calls can fail to
return, those that meet a `new` that throws; the run goes on after them.
-/
import WebPlugin.Plugin

namespace WebPlugin

open Memory Ledger Words

/-! ### Info -/

/-- `MAKE_FORMATID`. -/
def makeFormatID (a b c d : Char) : ℕ := d.toNat <<< 24 ||| c.toNat <<< 16 ||| b.toNat <<< 8 ||| a.toNat

def IIF_MULTIPAGE : ℕ := 1
def IIF_ANIM : ℕ := 2
def PPF_RGB : ℕ := 1
def PPF_ALPHA : ℕ := 8

/-- `ID_ImageInfo`, the fields `GetImageInfo` fills in. -/
structure IDImageInfo where
  dwFlags : ℕ := 0
  dwFormatID : ℕ := 0
  cx : ℤ := 0
  cy : ℤ := 0
  nBPS : ℤ := 0
  nSPP : ℤ := 0
  nPages : ℤ := 0
  deriving DecidableEq, Repr

/-- `ID_PageInfo`, the fields `GetPageInfo` fills in; `title` is `szTitle[0]`. -/
structure IDPageInfo where
  dwFlags : ℕ := 0
  cx : ℤ := 0
  cy : ℤ := 0
  nSPP : ℤ := 0
  nBPS : ℤ := 0
  nDelay : ℤ := 0
  title : ℕ := 0
  deriving DecidableEq, Repr

/-- `getBitsPerSample`. -/
def WebPDecoder.getBitsPerSample (_ : WebPDecoder) : ℤ := 8

/-- What `GetImageInfo` says of a decoder. -/
def WebPDecoder.imageInfo (d : WebPDecoder) : IDImageInfo where
  dwFlags := if d.hasAnimation then IIF_ANIM ||| IIF_MULTIPAGE else 0
  dwFormatID := makeFormatID 'W' 'E' 'B' 'P'
  cx := d.width
  cy := d.height
  nBPS := d.getBitsPerSample
  nSPP := if d.hasAlpha then 4 else 3
  nPages := d.getFrameCount

/-- What `GetPageInfo` says of a page. -/
def WebPDecoder.pageInfo (d : WebPDecoder) (iPage : ℤ) : IDPageInfo where
  dwFlags := if d.hasAlpha then PPF_RGB ||| PPF_ALPHA else PPF_RGB
  nSPP := if d.hasAlpha then 4 else 3
  cx := d.width
  cy := d.height
  nBPS := d.getBitsPerSample
  nDelay := d.getFrameDelay iPage

/-- `GetImageInfo`. -/
def getImageInfo (hs : Option WebPDecoder) (pii : IDImageInfo) : IDECode × IDImageInfo :=
  match hs with
  | none => (.invalidParam, pii)
  | some d => if d.getFrameCount = 0 then (.corruptData, pii) else (.ok, d.imageInfo)

/-- `GetPageInfo`. -/
def getPageInfo (hs : Option WebPDecoder) (iPage : ℤ) (ppi : IDPageInfo) : IDECode × IDPageInfo :=
  match hs with
  | none => (.invalidParam, ppi)
  | some d =>
    if iPage < 0 ∨ d.getFrameCount ≤ iPage then (.noPage, ppi) else (.ok, d.pageInfo iPage)

/-! ### The exports -/

namespace Process

/-- The library is loaded, `g_pWebPlugin` is null. -/
def loaded : Process := ⟨none, Heap.empty, [], []⟩

/-- After `IDP_Init`. -/
def init : Process := ⟨some 0, ⟨1, [⟨0, .plugin, 0⟩], []⟩, [], []⟩

/-- `DllMain` on `DLL_PROCESS_DETACH`. -/
def detach (p : Process) : Process := { p with plugin := none, heap := p.heap.release? p.plugin }

/-- What the host does: it calls an export, or releases a DIB. -/
inductive HostCall
  | init
  | getPlugInInfo (pi : Option ℕ)
  | showPlugInDialog
  | call (c : Call)
  | getImageInfo (hs : Option ℕ) (pii : IDImageInfo)
  | getPageInfo (hs : Option ℕ) (iPage : ℤ) (ppi : IDPageInfo)
  | globalFree (hdib : ℕ)

/-- What the host finds: the process, the code, and its variables. -/
structure Answer where
  process : Process
  code : Ended IDECode := .returned .ok
  pi : Option (Option ℕ) := none
  phs : Option (Option ℕ) := none
  pio : Option IDImageOut := none
  pii : Option IDImageInfo := none
  ppi : Option IDPageInfo := none
  strays : Strays := {}

/-- The variables the host passes; `pi` is the plug-in object that `*pi` points
into. -/
def HostCall.pi : HostCall → Option (Option ℕ)
  | .getPlugInInfo pi => some pi
  | _ => none

def HostCall.phs : HostCall → Option (Option ℕ)
  | .call (.openImage _ phs) => phs
  | _ => none

def HostCall.pio : HostCall → Option IDImageOut
  | .call (.pageDecode _ _ pio) => pio
  | _ => none

def HostCall.pii : HostCall → Option IDImageInfo
  | .getImageInfo _ pii => some pii
  | _ => none

def HostCall.ppi : HostCall → Option IDPageInfo
  | .getPageInfo _ _ ppi => some ppi
  | _ => none

/-- `IDP_Init`, the other exports, `GlobalFree`. -/
def answer (codec : Codec) (env : Env) (p : Process) : HostCall → Answer
  | .init =>
    if p.plugin = none then
      match p.heap.alloc (env.grants .plugin) .plugin 0 with
      | (none, heap) => { process := { p with heap := heap }, code := .badAlloc }
      | (some id, heap) => { process := { p with plugin := some id, heap := heap } }
    else { process := p }
  | .getPlugInInfo pi =>
    if p.plugin = none then { process := p, code := .returned .error, pi := some pi }
    else { process := p, pi := some p.plugin }
  | .showPlugInDialog =>
    if p.plugin = none then { process := p, code := .returned .error } else { process := p }
  | .call c =>
    let r := p.call codec env c
    { process := r.process, code := r.code, phs := r.phs, pio := r.pio, strays := r.strays }
  | .getImageInfo hs pii =>
    if p.plugin = none then { process := p, code := .returned .error, pii := some pii }
    else
      let (code, pii) := WebPlugin.getImageInfo (p.decoderOf hs) pii
      { process := p, code := .returned code, pii := some pii }
  | .getPageInfo hs iPage ppi =>
    if p.plugin = none then { process := p, code := .returned .error, ppi := some ppi }
    else
      let (code, ppi) := WebPlugin.getPageInfo (p.decoderOf hs) iPage ppi
      { process := p, code := .returned code, ppi := some ppi }
  | .globalFree hdib =>
    { process := { p with heap := p.heap.release hdib, dibs := p.dibs.filter (· ≠ hdib) } }

end Process

/-- The call for a file in memory. -/
def opening (file : WebPData) : Process.HostCall := .call (.openImage (some { buf := file }) (some none))

/-- The request for a page of a handle. -/
def pageCall (hs : ℕ) (req : IDDecodeParam) (out : IDImageOut) : Process.HostCall :=
  .call (.pageDecode (some hs) (some req) (some out))

/-! ### The host -/

/-- What the host knows: the handles it has opened and not closed, the DIBs it
was given and has not released, and how many files it could not open because the
call did not return. -/
structure Book where
  handles : List ℕ
  dibs : List ℕ
  thrown : ℕ
  deriving DecidableEq

namespace Book

/-- A handle the host may pass: NULL or one that is open. -/
def Has (b : Book) (hs : Option ℕ) : Prop := ∀ h ∈ hs, h ∈ b.handles

/-- The host keeps to its book, and sizes are C `int`s. -/
def Valid (b : Book) : Process.HostCall → Prop
  | .call (.openImage _ _) => True
  | .call (.pageDecode hs pdp _) =>
    b.Has hs ∧ ∀ p ∈ pdp, p.nWidth < 2147483648 ∧ p.nHeight < 2147483648
  | .call (.closeImage hs) => b.Has hs
  | .getImageInfo hs _ => b.Has hs
  | .getPageInfo hs _ _ => b.Has hs
  | .globalFree hdib => hdib ∈ b.dibs
  | _ => True

/-- A request for a page of an open handle. -/
theorem valid_page {b : Book} {hs : ℕ} {req : IDDecodeParam} {out : IDImageOut} (h : hs ∈ b.handles)
    (hint : req.nWidth < 2147483648 ∧ req.nHeight < 2147483648) : b.Valid (pageCall hs req out) := by
  refine ⟨fun i hi => ?_, fun pdp hpdp => ?_⟩
  · exact Option.some.inj hi ▸ h
  · exact Option.some.inj hpdp ▸ hint

/-- What the host notes after a call, from the code and its variables. -/
def after (b : Book) (c : Process.HostCall) (a : Process.Answer) : Book :=
  if a.code = .returned .ok then
    match c with
    | .call (.openImage _ _) => { b with handles := (a.phs.getD none).toList ++ b.handles }
    | .call (.pageDecode _ _ _) =>
      { b with dibs := ((a.pio.bind IDImageOut.hdib).map Block.id).toList ++ b.dibs }
    | .call (.closeImage hs) => { b with handles := b.handles.filter fun h => some h ≠ hs }
    | .globalFree hdib => { b with dibs := b.dibs.filter (· ≠ hdib) }
    | _ => b
  else if a.code = .badAlloc then
    match c with
    | .call (.openImage _ _) => { b with thrown := b.thrown + 1 }
    | _ => b
  else b

end Book

/-! ### The allocations that throw -/

/-- The memory `decode` asks for to keep the frame delays, with the heap at that
point. -/
def delaysRequest (grants : Grants) (bytes : WebPData) (heap : Heap ObjectKind) :
    Option (Heap ObjectKind × ℕ) :=
  match webPGetFeatures bytes with
  | (.ok, features) =>
    if features.hasAnimation then
      match webPDemuxNew grants bytes heap with
      | (some (_, demux), heap) =>
        let total := i32 (u32 demux.numFrames)
        if total = 0 then none else some (heap, u32 (4 * total))
      | _ => none
    else none
  | _ => none

/-- The memory for frame delays that a call asks for. -/
def Process.HostCall.delays (env : Env) (p : Process) : Process.HostCall → Option (Heap ObjectKind × ℕ)
  | .call (.openImage (some psi) (some _)) =>
    let unfilled : Bool := psi.virtualFilename ∧ 0 < psi.buf.size ∧
      psi.fillBuffer.any fun (done, newPos) => !done || newPos != psi.buf.size
    if p.plugin = none ∨ unfilled then none
    else match p.heap.alloc (env.grants .decoder) .decoder 0 with
    | (some _, heap) => delaysRequest env.grants psi.buf heap
    | _ => none
  | _ => none

/-- It is granted. -/
def Process.HostCall.DelaysGranted (env : Env) (p : Process) (c : Process.HostCall) : Prop :=
  ∀ r ∈ c.delays env p, env.grants .frameDelays r.1 r.2 = true

/-- The plug-in object is granted, if the call is to make one. -/
def Process.HostCall.PlugInGranted (env : Env) (p : Process) (c : Process.HostCall) : Prop :=
  c = .init → p.plugin = none → env.grants .plugin p.heap 0 = true

/-- Nothing throws. -/
def Process.HostCall.Granted (env : Env) (p : Process) (c : Process.HostCall) : Prop :=
  c.PlugInGranted env p ∧ c.DelaysGranted env p

/-- The runs of a host from loading the library on, with any failures, and what
the host has noted. -/
inductive Session (codec : Codec) : Book → Process → Prop
  | load : Session codec ⟨[], [], 0⟩ Process.loaded
  | step {b : Book} {p : Process} (run : Session codec b p) (env : Env) (c : Process.HostCall) (valid : b.Valid c) :
      Session codec (b.after c (p.answer codec env c)) (p.answer codec env c).process

end WebPlugin
