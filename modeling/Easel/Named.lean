/-
  Easel.Named — names for the values of enumerations, as reports write them and scripts read them.

  The names of one enumeration are different: a name reads back as its value (`Named.named?_name`).
-/
import Easel.Canvas.Basic
import Easel.Mesh
import Easel.Pen.Spatial
import Easel.Pen.Text
import Easel.Render.Capability

namespace Easel

class Named (α : Type) where
  all : List α
  name : α → String
  find_name (a : α) : all.find? (name · == name a) = some a := by intro a; cases a <;> rfl

def Named.named? {α : Type} [Named α] (text : String) : Option α :=
  (Named.all : List α).find? (Named.name · == text)

theorem Named.named?_name {α : Type} [Named α] (a : α) : named? (name a) = some a := find_name a

instance : Named Mesh.Topology where
  all := [.triangles, .triangleStrip, .triangleFan, .points, .pointSprites, .lines, .lineStrip, .quads]
  name
    | .triangles => "Triangles"
    | .triangleStrip => "TriangleStrip"
    | .triangleFan => "TriangleFan"
    | .points => "Points"
    | .pointSprites => "PointSprites"
    | .lines => "Lines"
    | .lineStrip => "LineStrip"
    | .quads => "Quads"

instance : Named Mesh.Mix where
  all := [.copy, .alpha, .add, .multiply, .multiply2, .transparent]
  name
    | .copy => "Copy"
    | .alpha => "Alpha"
    | .add => "Add"
    | .multiply => "Multiply"
    | .multiply2 => "Multiply2"
    | .transparent => "Transparent"

instance : Named Mesh.Alpha where
  all := [.none, .binary, .smooth]
  name
    | .none => "None"
    | .binary => "Binary"
    | .smooth => "Smooth"

instance : Named Mesh.Depth where
  all := [.none, .fill, .test, .use, .equal, .inverted]
  name
    | .none => "None"
    | .fill => "Fill"
    | .test => "Test"
    | .use => "Use"
    | .equal => "Equal"
    | .inverted => "Inverted"

instance : Named Render.Capability where
  all := [.blend, .depthTest, .scissorTest, .texture2D, .cullFace, .alphaTest, .multisample]
  name
    | .blend => "Blend"
    | .depthTest => "DepthTest"
    | .scissorTest => "ScissorTest"
    | .texture2D => "Texture2D"
    | .cullFace => "CullFace"
    | .alphaTest => "AlphaTest"
    | .multisample => "Multisample"

instance : Named Render.BlendFactor where
  all := [.zero, .one, .srcColor, .srcAlpha, .oneMinusSrcAlpha, .dstColor]
  name
    | .zero => "Zero"
    | .one => "One"
    | .srcColor => "SrcColor"
    | .srcAlpha => "SrcAlpha"
    | .oneMinusSrcAlpha => "OneMinusSrcAlpha"
    | .dstColor => "DstColor"

instance : Named Canvas.CursorMode where
  all := [.off, .on, .rgbaOnly]
  name
    | .off => "Off"
    | .on => "On"
    | .rgbaOnly => "RgbaOnly"

instance : Named Canvas.CursorShape where
  all := [.none, .arrow, .lens, .cross, .pen, .move, .sizeNwse, .sizeNesw, .sizeNs, .sizeEw, .stop, .wait]
  name
    | .none => "None"
    | .arrow => "Arrow"
    | .lens => "Lens"
    | .cross => "Cross"
    | .pen => "Pen"
    | .move => "Move"
    | .sizeNwse => "SizeNwse"
    | .sizeNesw => "SizeNesw"
    | .sizeNs => "SizeNs"
    | .sizeEw => "SizeEw"
    | .stop => "Stop"
    | .wait => "Wait"

instance : Named Canvas.Decoration where
  all := [.caption, .clientFrame]
  name
    | .caption => "Caption"
    | .clientFrame => "ClientFrame"

instance : Named Canvas.PresentMode where
  all := [.fifo, .immediate]
  name
    | .fifo => "Fifo"
    | .immediate => "Immediate"

instance : Named Variant.Kind where
  all := [.long, .bool, .string, .float]
  name
    | .long => "Long"
    | .bool => "Bool"
    | .string => "String"
    | .float => "Float"

instance : Named Pen.Align where
  all := [.top, .bottom, .left, .right, .center]
  name
    | .top => "Top"
    | .bottom => "Bottom"
    | .left => "Left"
    | .right => "Right"
    | .center => "Center"

instance : Named Pen.Spatial.Axis where
  all := [.x, .y, .z]
  name
    | .x => "X"
    | .y => "Y"
    | .z => "Z"

end Easel
