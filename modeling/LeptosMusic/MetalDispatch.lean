import LeptosMusic.Library.Grids

/-!
# The two ways to launch the visualizer kernel

`drawInMTKView:` dispatches one thread for each pixel on iOS 11, and whole threadgroups before it.
-/
namespace LeptosMusic

open Grids

structure MTLSize where
  width : Nat
  height : Nat
  depth : Nat
  deriving DecidableEq, Repr

def MTLSizeMake (width height depth : Nat) : MTLSize := ⟨width, height, depth⟩

/-- What the device says of a pipeline. A threadgroup holds at least one row of the threads
that run together. -/
structure MTLComputePipelineState where
  threadExecutionWidth : Nat
  maxTotalThreadsPerThreadgroup : Nat
  occupied : 1 ≤ threadExecutionWidth
  roomy : threadExecutionWidth ≤ maxTotalThreadsPerThreadgroup

/-- The last command of the encoder. -/
inductive Dispatch
  | dispatchThreads (threadsPerGrid threadsPerThreadgroup : MTLSize)
  | dispatchThreadgroups (threadgroupsPerGrid threadsPerThreadgroup : MTLSize)
  deriving DecidableEq, Repr

/-- The positions in the grid, as the kernel reads them. The threadgroups at the edges of a grid
of threads are cut to it; a grid of threadgroups has whole ones only. -/
def Dispatch.positions : Dispatch → List (Nat × Nat)
  | .dispatchThreads grid _ =>
      planes (List.range grid.width) (List.range grid.height) grid.depth
  | .dispatchThreadgroups groups group =>
      planes (tiled groups.width group.width) (tiled groups.height group.height)
        (groups.depth * group.depth)

structure MTLTexture (Colour : Type) where
  width : Nat
  height : Nat
  pixels : Nat → Nat → Colour

variable {Colour : Type}

/-- A write outside of the texture is dropped. -/
def MTLTexture.write (output : MTLTexture Colour) (colour : Colour) (position : Nat × Nat) :
    MTLTexture Colour :=
  if position.1 < output.width ∧ position.2 < output.height then
    { output with pixels := fun x y => if (x, y) = position then colour else output.pixels x y }
  else output

/-- The kernel. What it makes of the music and its position is floating point. -/
def compute (endColor : Nat → Nat → Nat × Nat → Colour) (output : MTLTexture Colour)
    (position : Nat × Nat) : MTLTexture Colour :=
  output.write (endColor output.width output.height position) position

/-- The command that `drawInMTKView:` encodes for a drawable of this size. -/
def dispatch (iOS11 : Bool) (_metalPipeline : MTLComputePipelineState) (width height : Nat) :
    Dispatch :=
  let threadWidth := _metalPipeline.threadExecutionWidth
  let threadHeight := _metalPipeline.maxTotalThreadsPerThreadgroup / threadWidth
  let threadsPerThreadgroup := MTLSizeMake threadWidth threadHeight 1
  if iOS11 then
    .dispatchThreads (MTLSizeMake width height 1) threadsPerThreadgroup
  else
    .dispatchThreadgroups (MTLSizeMake (width / threadWidth) (height / threadHeight) 1)
      threadsPerThreadgroup

def drawInMTKView (iOS11 : Bool) (_metalPipeline : MTLComputePipelineState)
    (endColor : Nat → Nat → Nat × Nat → Colour) (texture : MTLTexture Colour) :
    MTLTexture Colour :=
  (dispatch iOS11 _metalPipeline texture.width texture.height).positions.foldl (compute endColor)
    texture

namespace Dispatch

/-- A thread of the command runs at this pixel. -/
def Launches (command : Dispatch) (x y : Nat) : Prop := (x, y) ∈ command.positions

instance (command : Dispatch) (x y : Nat) : Decidable (command.Launches x y) :=
  inferInstanceAs (Decidable ((x, y) ∈ command.positions))

@[simp] theorem launches_threads {grid group : MTLSize} {x y : Nat} :
    (dispatchThreads grid group).Launches x y ↔ 0 < grid.depth ∧ x < grid.width ∧ y < grid.height := by
  rw [Launches, positions, mem_planes, List.mem_range, List.mem_range]

@[simp] theorem launches_threadgroups {groups group : MTLSize} {x y : Nat} :
    (dispatchThreadgroups groups group).Launches x y ↔
      0 < groups.depth * group.depth ∧ x < groups.width * group.width ∧
        y < groups.height * group.height := by
  rw [Launches, positions, mem_planes, mem_tiled, mem_tiled]

end Dispatch

namespace MTLTexture

@[simp] theorem write_width (output : MTLTexture Colour) (colour : Colour) (position : Nat × Nat) :
    (output.write colour position).width = output.width := by
  unfold write
  split <;> rfl

@[simp] theorem write_height (output : MTLTexture Colour) (colour : Colour)
    (position : Nat × Nat) : (output.write colour position).height = output.height := by
  unfold write
  split <;> rfl

/-- A pixel of the texture changes by the write to its own position only. -/
theorem write_pixel (output : MTLTexture Colour) (colour : Colour) (position : Nat × Nat) {x y : Nat}
    (left : x < output.width) (below : y < output.height) :
    (output.write colour position).pixels x y =
      if (x, y) = position then colour else output.pixels x y := by
  unfold write
  split
  · rfl
  · rename_i outside
    rw [if_neg]
    rintro rfl
    exact outside ⟨left, below⟩

end MTLTexture

/-- Each pixel belongs to one thread, so the order in which the threads run is not seen. -/
theorem compute_pixels (endColor : Nat → Nat → Nat × Nat → Colour) (positions : List (Nat × Nat)) :
    ∀ (texture : MTLTexture Colour) {x y : Nat}, x < texture.width → y < texture.height →
      (positions.foldl (compute endColor) texture).pixels x y =
        if (x, y) ∈ positions then endColor texture.width texture.height (x, y)
        else texture.pixels x y := by
  induction positions with
  | nil => intro texture x y _ _; rw [if_neg List.not_mem_nil]; rfl
  | cons position rest ih =>
      intro texture x y left below
      rw [List.foldl_cons, ih _ (by simpa [compute] using left) (by simpa [compute] using below)]
      simp only [compute, MTLTexture.write_width, MTLTexture.write_height,
        MTLTexture.write_pixel texture _ position left below, List.mem_cons]
      by_cases first : (x, y) = position
      · subst first
        simp
      · simp [first]

/-- A pixel shows the new frame when a thread ran for it, and what it showed before otherwise. -/
theorem drawInMTKView_pixel (iOS11 : Bool) (_metalPipeline : MTLComputePipelineState)
    (endColor : Nat → Nat → Nat × Nat → Colour) (texture : MTLTexture Colour) {x y : Nat}
    (left : x < texture.width) (below : y < texture.height) :
    (drawInMTKView iOS11 _metalPipeline endColor texture).pixels x y =
      if (dispatch iOS11 _metalPipeline texture.width texture.height).Launches x y then
        endColor texture.width texture.height (x, y)
      else texture.pixels x y :=
  compute_pixels endColor _ texture left below

section Sizes

variable (_metalPipeline : MTLComputePipelineState) (width height x y : Nat)

theorem dispatch_iOS11 :
    (dispatch true _metalPipeline width height).Launches x y ↔ x < width ∧ y < height := by
  simp [dispatch, MTLSizeMake]

theorem nodup_dispatch_iOS11 : (dispatch true _metalPipeline width height).positions.Nodup :=
  nodup_planes_one List.nodup_range List.nodup_range

/-- The older branch leaves the remainder of either side without threads. -/
theorem dispatch_threadgroups :
    (dispatch false _metalPipeline width height).Launches x y ↔
      x < width - width % _metalPipeline.threadExecutionWidth ∧
        y < height - height %
          (_metalPipeline.maxTotalThreadsPerThreadgroup / _metalPipeline.threadExecutionWidth) := by
  simp [dispatch, MTLSizeMake, div_mul_eq_sub_mod]

/-- The iOS 11 branch runs exactly one thread for each pixel of the drawable. The older one
reaches them all exactly when there are none or the threadgroup divides the drawable both ways. -/
theorem dispatch_covers_iff :
    ((dispatch true _metalPipeline width height).positions.Nodup ∧
      ∀ x y, (dispatch true _metalPipeline width height).Launches x y ↔ x < width ∧ y < height) ∧
    ((∀ x y, x < width → y < height → (dispatch false _metalPipeline width height).Launches x y) ↔
      width = 0 ∨ height = 0 ∨
        _metalPipeline.threadExecutionWidth ∣ width ∧
          _metalPipeline.maxTotalThreadsPerThreadgroup / _metalPipeline.threadExecutionWidth ∣
            height) := by
  constructor
  · exact ⟨nodup_dispatch_iOS11 _metalPipeline width height,
      fun x y => dispatch_iOS11 _metalPipeline width height x y⟩
  · simp only [dispatch, MTLSizeMake, Bool.false_eq_true, if_false, Dispatch.launches_threadgroups,
      Nat.one_mul, Nat.zero_lt_one, true_and, holds_iff, div_mul_covers]

end Sizes

/-- A GPU with rows of 32 threads and 512 threads to a group. -/
def rowsOf32 : MTLComputePipelineState := ⟨32, 512, by decide, by decide⟩

/-- On a drawable of 750 by 422 pixels the column behind the 23 groups is not drawn. -/
theorem dispatch_strip :
    ¬ (∀ x y, x < 750 → y < 422 → (dispatch false rowsOf32 750 422).Launches x y) := by
  intro covers
  have last := covers 749 0 (by decide) (by decide)
  rw [dispatch_threadgroups] at last
  exact absurd last (by decide)

end LeptosMusic
