/-!
# The product

The name, version and notice that the program shows.
-/

namespace Chip8.Product

/-- The program's name. -/
def name : String := "OctaChip Emulator"

/-- The program's version. -/
def version : String := "1.0.0"

/-- The notice shown after the name. -/
def notice : String :=
  "Copyright (C) 2022 Gregory Maynard-Hoare, licensed under GNU Affero General Public License v3.0"

/-- Name and version, opening the banner and every fault report. -/
def intro : String := name ++ " V" ++ version ++ " -- "

end Chip8.Product
