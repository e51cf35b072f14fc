import Brainfuck.Op
import Brainfuck.Screen.Style
/-!
# The colours of the console
-/
namespace Brainfuck.Theme

def fg : Color := .rgb 205 214 244
def primary : Color := .rgb 137 180 250
def secondary : Color := .rgb 250 179 135
def comment : Color := .rgb 108 112 134
def success : Color := .rgb 166 227 161
def error : Color := .rgb 243 139 168
def pointer : Color := .rgb 148 226 213
def cellOp : Color := .rgb 250 179 135
def ioOp : Color := .rgb 245 194 231
def borderFocused : Color := .rgb 249 226 175
def borderNormal : Color := .rgb 108 112 134
def barBackground : Color := .rgb 50 50 70

/-- The border of a pane. -/
def border (focused : Bool) : Style :=
  if focused then { fg := some borderFocused, bold := true } else { fg := some borderNormal }

/-- How comment characters are shown. -/
def commentStyle : Style := { fg := some comment }

/-- How an instruction character is shown. -/
def opStyle : Op → Style
  | .right | .left => { fg := some pointer }
  | .inc | .dec => { fg := some cellOp }
  | .output | .input => { fg := some ioOp, bold := true }
  | .opening | .closing => { fg := some primary, bold := true }

/-- How the character at fault is shown. -/
def errorStyle : Style := { fg := some .white, bg := some error, bold := true }

/-- How the number of the line at fault is shown. -/
def errorGutter : Style := { fg := some error, bold := true }

end Brainfuck.Theme
