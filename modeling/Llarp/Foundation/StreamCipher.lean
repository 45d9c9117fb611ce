import Llarp.Foundation.Bytes
import Mathlib.Data.List.Perm.Basic

/-!
# Layers of stream ciphers

A stream cipher adds a stream of bytes, which the key and the nonce determine. Applying it
twice gives back what was there, and layers with different keys commute, so that layers may be
taken off in any order.
-/

namespace Foundation

/-- A byte string in a buffer of a fixed capacity. -/
@[ext]
structure BoundedBytes (capacity : ℕ) where
  bytes : List UInt8
  fits : bytes.length ≤ capacity
  deriving DecidableEq, Repr

/-- A cipher is given by its streams. -/
structure StreamCipher (K N : Type) where
  stream : K → N → ℕ → UInt8

namespace StreamCipher

variable {K N : Type} {capacity : ℕ} (cipher : StreamCipher K N)

variable (layers : List (K × N)) (buffer : BoundedBytes capacity)

/-- Add the stream of a key and a nonce. -/
def apply (key : K) (nonce : N) : BoundedBytes capacity where
  bytes := buffer.bytes.mapIdx fun i byte => byte ^^^ cipher.stream key nonce i
  fits := by rw [List.length_mapIdx]; exact buffer.fits

theorem apply_apply_self (key : K) (nonce : N) :
    cipher.apply (cipher.apply buffer key nonce) key nonce = buffer := by
  apply BoundedBytes.ext
  apply List.ext_getElem
  · simp [apply]
  · intro i _ _
    simp [apply]

theorem apply_comm (key key' : K) (nonce nonce' : N) :
    cipher.apply (cipher.apply buffer key nonce) key' nonce' =
      cipher.apply (cipher.apply buffer key' nonce') key nonce := by
  apply BoundedBytes.ext
  apply List.ext_getElem
  · simp [apply]
  · intro i _ _
    simp only [apply, List.getElem_mapIdx]
    rw [UInt8.xor_assoc, UInt8.xor_comm (cipher.stream key nonce i), ← UInt8.xor_assoc]

/-- Apply several layers, one after the other. -/
def applyAll : BoundedBytes capacity :=
  layers.foldl (fun buffer layer => cipher.apply buffer layer.1 layer.2) buffer

@[simp] theorem applyAll_nil : cipher.applyAll [] buffer = buffer :=
  rfl

@[simp] theorem applyAll_cons (layer : K × N) (layers : List (K × N))
    (buffer : BoundedBytes capacity) :
    cipher.applyAll (layer :: layers) buffer =
      cipher.applyAll layers (cipher.apply buffer layer.1 layer.2) := rfl

/-- A layer may be applied before the others or after them. -/
theorem applyAll_apply (key : K) (nonce : N) :
    cipher.applyAll layers (cipher.apply buffer key nonce) =
      cipher.apply (cipher.applyAll layers buffer) key nonce := by
  induction layers generalizing buffer with
  | nil => rfl
  | cons layer layers ih => rw [applyAll_cons, applyAll_cons, apply_comm, ih]

/-- The order of the layers does not matter. -/
theorem applyAll_perm {layers layers' : List (K × N)} (same : layers.Perm layers')
    (buffer : BoundedBytes capacity) :
    cipher.applyAll layers buffer = cipher.applyAll layers' buffer := by
  have commute : RightCommutative fun (buffer : BoundedBytes capacity) (layer : K × N) =>
      cipher.apply buffer layer.1 layer.2 := ⟨fun buffer a b => cipher.apply_comm ..⟩
  exact same.foldl_eq buffer

/-- Layers that are applied twice are gone. -/
theorem applyAll_applyAll_self :
    cipher.applyAll layers (cipher.applyAll layers buffer) = buffer := by
  induction layers generalizing buffer with
  | nil => rfl
  | cons layer layers ih =>
    rw [applyAll_cons, applyAll_cons, applyAll_apply, ih, apply_apply_self]

end StreamCipher

/-! ### Nonces that change from layer to layer -/

section Nonces

variable {K N M : Type} (mix : N → M → N)

/-- The nonce behind some layers, each of which mixes its mask into it. -/
def nonceAfter (nonce : N) (keys : List (K × M)) : N :=
  keys.foldl (fun nonce key => mix nonce key.2) nonce

/-- Layers that mix their mask into the nonce after they have used it. -/
def layersBefore : N → List (K × M) → List (K × N)
  | _, [] => []
  | nonce, (key, mask) :: keys => (key, nonce) :: layersBefore (mix nonce mask) keys

/-- Layers that mix their mask into the nonce before they use it. -/
def layersAfter : N → List (K × M) → List (K × N)
  | _, [] => []
  | nonce, (key, mask) :: keys => (key, mix nonce mask) :: layersAfter (mix nonce mask) keys

theorem layersBefore_concat (nonce : N) (keys : List (K × M)) (key : K) (mask : M) :
    layersBefore mix nonce (keys ++ [(key, mask)]) =
      layersBefore mix nonce keys ++ [(key, nonceAfter mix nonce keys)] := by
  induction keys generalizing nonce with
  | nil => rfl
  | cons first keys ih =>
    rw [List.cons_append, layersBefore, layersBefore, ih]
    rfl

theorem applyAll_layersBefore_concat {capacity : ℕ} (cipher : StreamCipher K N) (nonce : N)
    (keys : List (K × M)) (key : K) (mask : M) (buffer : BoundedBytes capacity) :
    cipher.applyAll (layersBefore mix nonce (keys ++ [(key, mask)])) buffer =
      cipher.apply (cipher.applyAll (layersBefore mix nonce keys) buffer) key
        (nonceAfter mix nonce keys) := by
  rw [layersBefore_concat, StreamCipher.applyAll, List.foldl_concat]
  rfl

/-- If a mask that is mixed in twice is gone, the way back has the same layers. -/
theorem layersAfter_nonceAfter_reverse (undo : ∀ nonce mask, mix (mix nonce mask) mask = nonce)
    (nonce : N) (keys : List (K × M)) :
    layersAfter mix (nonceAfter mix nonce keys.reverse) keys =
      (layersBefore mix nonce keys.reverse).reverse := by
  induction keys with
  | nil => rfl
  | cons first keys ih =>
    obtain ⟨key, mask⟩ := first
    have back : mix (nonceAfter mix nonce (keys.reverse ++ [(key, mask)])) mask =
        nonceAfter mix nonce keys.reverse := by
      rw [nonceAfter, List.foldl_concat]
      exact undo _ mask
    rw [List.reverse_cons, layersBefore_concat, List.reverse_concat, layersAfter, back, ih]

end Nonces

end Foundation
