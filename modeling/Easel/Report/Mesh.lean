/-
  Easel.Report.Mesh — meshes and what is kept of them, written as data.
-/
import Easel.Mesh.Cache
import Easel.Report.Basic

namespace Easel.Report

open Json Easel.Geometry

def flags (fs : List (Bool × Nat)) : Nat := fs.foldr (fun (on, bit) n => (if on then bit else 0) + n) 0

def spaceFlags (screenSpace : Bool) : Value := .ofNat (flags [(screenSpace, 1)])

def handle : Option Handle → Value := .ofOption fun h => .ofNat h.index

def state (form : Form) (s : Mesh.State) : List (String × Value) :=
  [("type", named s.topology), ("mix", named s.mix), ("z", named s.depth),
    ("alpha", .array [.bool s.autoAlpha, named s.alpha]), ("tex", handle s.texture), ("shader", handle s.shader),
    ("domain", handle s.domain), ("xf", affine form s.transform)]

def vertices (form : Form) (vs : List Vec3) : Value := .ofList form (vs.flatMap vec3Parts)

def indices : List Nat → Value := .ofList .ofNat

def texcoords (form : Form) (ts : List (Vec2 Float32)) : Value := .ofList form (ts.flatMap vec2Parts)

def mesh (form : Form) (s : Mesh.Submission) : Value :=
  .ofMembers (state form s.mesh.state ++
    [("v", vertices form s.mesh.vertices), ("i", indices s.mesh.indices), ("c", .ofOption colors s.mesh.colors),
      ("t", .ofOption (texcoords form) s.mesh.texcoords), ("flags", spaceFlags s.screenSpace)])

def span (b : Mesh.Batch) : Value := .ofList .ofNat [b.vertexOffset, b.vertexCount, b.indexOffset, b.indexCount]

def batch (form : Form) (b : Mesh.Batch) : Value :=
  .ofMembers (state form b.state ++ [("flags", spaceFlags b.screenSpace), ("span", span b)])

def cache (form : Form) (c : Mesh.Cache) : Value :=
  .ofMembers [("batches", .ofList (batch form) c.batches), ("v", vertices form c.vertices), ("i", indices c.indices),
    ("c", colors c.colors), ("t", texcoords form c.texcoords)]

def cacheSize (c : Mesh.Cache) : Value := .array [.ofNat c.batches.length, .bool c.isEmpty]

end Easel.Report
