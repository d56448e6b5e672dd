import FileBroker.FileService.Direct
import FileBroker.Helper.Terminal
import FileBroker.Slot.Basic

namespace FileBroker

def Proxy.world (p : Proxy (Server σ δ) δ) : σ :=
  p.dispatcher.link.far.world

def Proxy.inWorld (p : Proxy (Server σ δ) δ) (world : σ) : Proxy (Server σ δ) δ :=
  { p with dispatcher.link.far.world := world }

-- A slot whose helpers work in the same world as we do.
structure Workplace (σ δ : Type) where
  world : σ
  slot  : Slot σ (Server σ δ) δ

namespace Workplace

variable {σ δ : Type}

def ofWorld (world : σ) : Workplace σ δ where
  world := world
  slot  := { source := world }

-- A call through the slot. The proxy that it used is the one that was built last.
def callSlot (k : Connector σ (Server σ δ) δ) (c : FileCall δ α) (w : Workplace σ δ) :
    Except ProxyError α × Workplace σ δ :=
  let slot := { w.slot with source := w.world, built := w.slot.built.map (·.inWorld w.world) }
  let (r, slot) := (Slot.service k).call c slot
  (r, { world := (slot.built.getLast?.map (·.world)).getD slot.source, slot })

def privileged (k : Connector σ (Server σ δ) δ) : FileService (Workplace σ δ) δ where
  call := callSlot k

def plain (k : Kernel σ δ) : FileService (Workplace σ δ) δ :=
  (FileService.direct k).on world fun w world => { w with world }

-- Without privilege first, through the slot if that is denied.
def escalating (kernel : Kernel σ δ) (k : Connector σ (Server σ δ) δ) :
    FileService (Workplace σ δ) δ :=
  .escalating (plain kernel) (privileged k)

end Workplace

end FileBroker
