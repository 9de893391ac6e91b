import MachineBundle.Proofs.Arrangement.Shared
import MachineBundle.Proofs.Arrangement.Written

/-!
# Arrangements that are not read

The names in a manifest are read if there is one, if its path is not too long and if it holds text. The machines of the
names are loaded one after the other, up to the first with a bundle that is not loaded.
-/

namespace MachineBundle

namespace Arrangement

open Bundle Reading

variable {t : Tree} {directory : Path} {trail : Trail}

/-! ## Manifests -/

/-- A manifest that cannot be listed: its path is too long, or it holds no text. -/
def Unlistable (t : Tree) (directory : Path) : Prop :=
  (∃ f, t.look (manifestPath directory) = .error f) ∨
    ∃ content m, t.readBytes (manifestPath directory) = .ok content ∧ Text.decode content = .error m

theorem loadNames_of_readBytes {content : ByteArray} (h : t.readBytes (manifestPath directory) = .ok content) :
    loadNames t directory = (Tree.textOf content).map namesIn := by
  have htext : t.readText (manifestPath directory) = Tree.textOf content := by
    rw [Tree.readText, h]
    rfl
  unfold loadNames
  dsimp only
  rw [isFile_of_readBytes h, htext]
  cases Tree.textOf content <;> rfl

/-- A name leads to no bundle, or to one that can be loaded. -/
def Passes (t : Tree) (directory : Path) (name : String) : Prop :=
  bundle? t directory name = .ok none ∨
    ∃ bundle, bundle? t directory name = .ok (some bundle) ∧ IsLoadable t bundle (recordedBinding t bundle)

/-- A name leads to a bundle in which something cannot be used. -/
def Blocks (t : Tree) (directory : Path) (name : String) : Prop :=
  ∃ bundle, bundle? t directory name = .ok (some bundle) ∧ IsIllegible t bundle (recordedBinding t bundle)

end Arrangement

end MachineBundle
