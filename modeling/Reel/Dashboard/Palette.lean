/-!
# Colors

The colors of the dashboard, as they are written in styles.
-/
namespace Reel.Palette

def foreground : String := "#D8DEE9"
def dim : String := "#4C566A"
def header : String := "#88C0D0"
def command : String := "#ECEFF4"
def flags : String := "#81A1C1"
def numbers : String := "#B48EAD"
def paths : String := "#A3BE8C"
def strings : String := "#EBCB8B"
def error : String := "#BF616A"

def bold (color : String) : String := "bold " ++ color

end Reel.Palette
