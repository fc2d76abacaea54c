import MahinaOS.Compositor.Protocol

/-!
# The surfaces of the compositor

`lgp-compositor/scene/surface.c` keeps the surfaces in an array of 64 slots.  A slot that is not in
use is all zeros, since `lgp_surface_release` clears it.  The array is the list `slots` of
`SurfaceManager`, whose length is part of the structure; creating, destroying and committing a
surface write through a pointer into it, which is `ListUpdate.modifyFirst`.

What the operations can do to a slot is said with the messages that call them, in `SlotStep`.
-/

namespace Compositor

def surfaceMax : Nat := 64

/-- `LGP_SURFACE_STATUS_*`. -/
inductive SurfaceStatus where
  | ok
  | invalid
  | denied
  | noMemory
  | notFound
  | badBuffer
  deriving DecidableEq, Repr

def SurfaceStatus.code : SurfaceStatus → UInt32
  | ok => 0
  | invalid => 1
  | denied => 2
  | noMemory => 3
  | notFound => 4
  | badBuffer => 5

namespace SurfaceType

def systemChrome : UInt32 := 1
def lunaIsland : UInt32 := 2
def shellSurface : UInt32 := 3
def applicationWindow : UInt32 := 4
def canvasSurface : UInt32 := 5
def overlaySurface : UInt32 := 6

end SurfaceType

namespace Layer

def wallpaper : UInt32 := 0
def application : UInt32 := 100
def shell : UInt32 := 200
def overlay : UInt32 := 300
def notification : UInt32 := 400
def lunaIsland : UInt32 := 500
def systemModal : UInt32 := 600
def cursor : UInt32 := 700

end Layer

namespace WmState

def normal : UInt32 := 0
def minimized : UInt32 := 2
def fullscreen : UInt32 := 3
def hidden : UInt32 := 4

end WmState

def pixelFormatXrgb8888 : UInt32 := 0x34325258

def pixelFormatArgb8888 : UInt32 := 0x34325241

/-- `lgp_surface_t`.  A mapped buffer is known by the address that `mmap` gave. -/
structure Surface where
  inUse : Bool := false
  id : UInt32 := 0
  ownerSessionId : UInt32 := 0
  surfaceType : UInt32 := 0
  x : Int32 := 0
  y : Int32 := 0
  width : UInt32 := 0
  height : UInt32 := 0
  layer : UInt32 := 0
  stride : UInt32 := 0
  pixelFormat : UInt32 := 0
  bufferSize : Nat := 0
  bufferMap : Option Nat := none
  wmState : UInt32 := 0
  deriving DecidableEq, Repr

/-- What `lgp_surface_release` leaves. -/
def Surface.released : Surface := {}

/-! ## Checking a request -/

/-- `lgp_surface_type_known`. -/
def surfaceTypeKnown (surfaceType : UInt32) : Bool :=
  surfaceType ≥ SurfaceType.systemChrome && surfaceType ≤ SurfaceType.overlaySurface

/-- `lgp_surface_is_in_display`. -/
def surfaceIsInDisplay (p : CreatePayload) : Bool :=
  if p.width = 0 ∨ p.height = 0 then false
  else if p.width > 16384 ∨ p.height > 16384 then false
  else if p.x < -16384 ∨ p.x > 16384 then false
  else if p.y < -16384 ∨ p.y > 16384 then false
  else true

/-- `lgp_surface_client_has_cap`. -/
def surfaceClientHasCap (client : Client) (cap : UInt32) : Bool := client.capsGranted &&& cap = cap

/-- `lgp_surface_validate_request`. -/
def surfaceValidateRequest (client : Client) (p : CreatePayload) : SurfaceStatus :=
  if !surfaceTypeKnown p.surfaceType then .invalid
  else if !surfaceIsInDisplay p then .invalid
  else if p.surfaceType = SurfaceType.applicationWindow then
    if p.layer ≠ Layer.application then .invalid else .ok
  else if p.surfaceType = SurfaceType.canvasSurface then
    if !surfaceClientHasCap client Cap.canvasSurface then .denied
    else if p.layer ≠ Layer.application ∧ p.layer ≠ Layer.wallpaper then .invalid
    else .ok
  else if p.surfaceType = SurfaceType.lunaIsland then
    if !surfaceClientHasCap client Cap.lunaIsland then .denied
    else if p.layer ≠ Layer.lunaIsland then .invalid
    else .ok
  else if p.surfaceType = SurfaceType.systemChrome ∨ p.surfaceType = SurfaceType.shellSurface ∨
      p.surfaceType = SurfaceType.overlaySurface then
    if !surfaceClientHasCap client Cap.layerShell then .denied
    else if p.layer < Layer.shell ∨ p.layer > Layer.systemModal then .invalid
    else .ok
  else .invalid

/-! ## The table -/

/-- `lgp_surface_manager_t`. -/
structure SurfaceManager where
  nextSurfaceId : UInt32
  slots : List Surface
  size : slots.length = surfaceMax

/-- The slot of the surface with an id. -/
def Surface.hasId (surfaceId : UInt32) (s : Surface) : Bool := s.inUse && s.id == surfaceId

namespace SurfaceManager

/-- `lgp_surface_manager_init`. -/
def init : SurfaceManager := ⟨1, List.replicate surfaceMax Surface.released, List.length_replicate⟩

/-- A write to the first slot that passes a test. -/
def modify (m : SurfaceManager) (p : Surface → Bool) (f : Surface → Surface) : SurfaceManager where
  nextSurfaceId := m.nextSurfaceId
  slots := ListUpdate.modifyFirst p f m.slots
  size := (ListUpdate.length_modifyFirst p f m.slots).trans m.size

/-- `lgp_surface_manager_find`. -/
def find (m : SurfaceManager) (surfaceId : UInt32) : Option Surface :=
  m.slots.find? (Surface.hasId surfaceId)

/-- The id after `id`, which is never 0. -/
def succId (id : UInt32) : UInt32 := if id + 1 = 0 then 1 else id + 1

/-- What `lgp_surface_manager_create` writes to its slot. -/
def fill (client : Client) (p : CreatePayload) (id : UInt32) (slot : Surface) : Surface :=
  { slot with
    inUse := true
    id := id
    ownerSessionId := client.sessionId
    surfaceType := p.surfaceType
    x := p.x
    y := p.y
    width := p.width
    height := p.height
    layer := p.layer }

/-- `lgp_surface_manager_create`: the table, the status and the surface id. -/
def create (m : SurfaceManager) (client : Client) (p : CreatePayload) :
    SurfaceManager × SurfaceStatus × UInt32 :=
  let status := surfaceValidateRequest client p
  if status ≠ .ok then (m, status, 0)
  else if m.slots.all (·.inUse) then (m, .noMemory, 0)
  else
    let id := m.nextSurfaceId
    ({ m.modify (!·.inUse) (fill client p id) with nextSurfaceId := succId id }, .ok, id)

/-- `lgp_surface_manager_destroy`. -/
def destroy (m : SurfaceManager) (client : Client) (surfaceId : UInt32) :
    SurfaceManager × SurfaceStatus :=
  match m.find surfaceId with
  | none => (m, .notFound)
  | some surface =>
    if surface.ownerSessionId ≠ client.sessionId then (m, .denied)
    else (m.modify (Surface.hasId surfaceId) fun _ => Surface.released, .ok)

/-- The checks of a commit against its surface.  `SIZE_MAX / height` is never below a 32-bit
stride where `size_t` has 64 bits. -/
def commitFits (p : CommitPayload) (surface : Surface) : Bool :=
  p.width == surface.width && p.height == surface.height &&
    (p.pixelFormat == pixelFormatXrgb8888 || p.pixelFormat == pixelFormatArgb8888) &&
    p.stride ≥ p.width * 4 && p.height != 0 &&
    p.byteSize.toNat ≥ p.stride.toNat * p.height.toNat && p.byteSize != 0

/-- What a commit writes to its surface. -/
def attach (p : CommitPayload) (map : Nat) (s : Surface) : Surface :=
  { s with
    bufferMap := some map
    bufferSize := p.byteSize.toNat
    stride := p.stride
    pixelFormat := p.pixelFormat }

/-- `lgp_surface_manager_commit`, with the buffer descriptor, if there is one, and the addresses at
which `mmap` maps descriptors. -/
def commit (m : SurfaceManager) (client : Client) (p : CommitPayload) (bufferFd : Option Nat)
    (mmap : Nat → Option Nat) : SurfaceManager × SurfaceStatus :=
  match bufferFd with
  | none => (m, .badBuffer)
  | some fd =>
    match m.find p.surfaceId with
    | none => (m, .notFound)
    | some surface =>
      if surface.ownerSessionId ≠ client.sessionId then (m, .denied)
      else if !commitFits p surface then (m, .badBuffer)
      else
        match mmap fd with
        | none => (m, .badBuffer)
        | some map => (m.modify (Surface.hasId p.surfaceId) (attach p map), .ok)

/-- `lgp_surface_manager_destroy_for_client`. -/
def destroyForClient (m : SurfaceManager) (client : Client) : SurfaceManager where
  nextSurfaceId := m.nextSurfaceId
  slots := m.slots.map fun s =>
    if s.inUse && s.ownerSessionId == client.sessionId then Surface.released else s
  size := (List.length_map _).trans m.size

theorem mem_destroyForClient {m : SurfaceManager} {client : Client} {s : Surface}
    (h : s ∈ (m.destroyForClient client).slots) (huse : s.inUse = true) :
    s ∈ m.slots ∧ s.ownerSessionId ≠ client.sessionId := by
  obtain ⟨t, ht, hs⟩ := List.mem_map.1 h
  split at hs
  · subst hs
    cases huse
  · next hkeep =>
    subst hs
    refine ⟨ht, fun howner => hkeep ?_⟩
    simp [huse, howner]

end SurfaceManager

end Compositor
