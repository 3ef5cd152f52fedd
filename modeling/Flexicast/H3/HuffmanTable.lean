import Mathlib.Data.List.Basic

/-! The tables of `h3/qpack/huffman/table.rs`. -/

namespace Flexicast

namespace Huffman

/-- The number of bits and the bits of every symbol; the last one ends a string. -/
def encodeTable : List (Nat × Nat) := [
  (13, 0x1ff8), (23, 0x7fffd8), (28, 0xfffffe2), (28, 0xfffffe3), (28, 0xfffffe4), (28, 0xfffffe5),
  (28, 0xfffffe6), (28, 0xfffffe7), (28, 0xfffffe8), (24, 0xffffea), (30, 0x3ffffffc), (28, 0xfffffe9),
  (28, 0xfffffea), (30, 0x3ffffffd), (28, 0xfffffeb), (28, 0xfffffec), (28, 0xfffffed), (28, 0xfffffee),
  (28, 0xfffffef), (28, 0xffffff0), (28, 0xffffff1), (28, 0xffffff2), (30, 0x3ffffffe), (28, 0xffffff3),
  (28, 0xffffff4), (28, 0xffffff5), (28, 0xffffff6), (28, 0xffffff7), (28, 0xffffff8), (28, 0xffffff9),
  (28, 0xffffffa), (28, 0xffffffb), (6, 0x14), (10, 0x3f8), (10, 0x3f9), (12, 0xffa), (13, 0x1ff9), (6, 0x15),
  (8, 0xf8), (11, 0x7fa), (10, 0x3fa), (10, 0x3fb), (8, 0xf9), (11, 0x7fb), (8, 0xfa), (6, 0x16), (6, 0x17),
  (6, 0x18), (5, 0x0), (5, 0x1), (5, 0x2), (6, 0x19), (6, 0x1a), (6, 0x1b), (6, 0x1c), (6, 0x1d), (6, 0x1e),
  (6, 0x1f), (7, 0x5c), (8, 0xfb), (15, 0x7ffc), (6, 0x20), (12, 0xffb), (10, 0x3fc), (13, 0x1ffa), (6, 0x21),
  (7, 0x5d), (7, 0x5e), (7, 0x5f), (7, 0x60), (7, 0x61), (7, 0x62), (7, 0x63), (7, 0x64), (7, 0x65), (7, 0x66),
  (7, 0x67), (7, 0x68), (7, 0x69), (7, 0x6a), (7, 0x6b), (7, 0x6c), (7, 0x6d), (7, 0x6e), (7, 0x6f), (7, 0x70),
  (7, 0x71), (7, 0x72), (8, 0xfc), (7, 0x73), (8, 0xfd), (13, 0x1ffb), (19, 0x7fff0), (13, 0x1ffc), (14, 0x3ffc),
  (6, 0x22), (15, 0x7ffd), (5, 0x3), (6, 0x23), (5, 0x4), (6, 0x24), (5, 0x5), (6, 0x25), (6, 0x26), (6, 0x27),
  (5, 0x6), (7, 0x74), (7, 0x75), (6, 0x28), (6, 0x29), (6, 0x2a), (5, 0x7), (6, 0x2b), (7, 0x76), (6, 0x2c),
  (5, 0x8), (5, 0x9), (6, 0x2d), (7, 0x77), (7, 0x78), (7, 0x79), (7, 0x7a), (7, 0x7b), (15, 0x7ffe), (11, 0x7fc),
  (14, 0x3ffd), (13, 0x1ffd), (28, 0xffffffc), (20, 0xfffe6), (22, 0x3fffd2), (20, 0xfffe7), (20, 0xfffe8),
  (22, 0x3fffd3), (22, 0x3fffd4), (22, 0x3fffd5), (23, 0x7fffd9), (22, 0x3fffd6), (23, 0x7fffda), (23, 0x7fffdb),
  (23, 0x7fffdc), (23, 0x7fffdd), (23, 0x7fffde), (24, 0xffffeb), (23, 0x7fffdf), (24, 0xffffec), (24, 0xffffed),
  (22, 0x3fffd7), (23, 0x7fffe0), (24, 0xffffee), (23, 0x7fffe1), (23, 0x7fffe2), (23, 0x7fffe3), (23, 0x7fffe4),
  (21, 0x1fffdc), (22, 0x3fffd8), (23, 0x7fffe5), (22, 0x3fffd9), (23, 0x7fffe6), (23, 0x7fffe7), (24, 0xffffef),
  (22, 0x3fffda), (21, 0x1fffdd), (20, 0xfffe9), (22, 0x3fffdb), (22, 0x3fffdc), (23, 0x7fffe8), (23, 0x7fffe9),
  (21, 0x1fffde), (23, 0x7fffea), (22, 0x3fffdd), (22, 0x3fffde), (24, 0xfffff0), (21, 0x1fffdf), (22, 0x3fffdf),
  (23, 0x7fffeb), (23, 0x7fffec), (21, 0x1fffe0), (21, 0x1fffe1), (22, 0x3fffe0), (21, 0x1fffe2), (23, 0x7fffed),
  (22, 0x3fffe1), (23, 0x7fffee), (23, 0x7fffef), (20, 0xfffea), (22, 0x3fffe2), (22, 0x3fffe3), (22, 0x3fffe4),
  (23, 0x7ffff0), (22, 0x3fffe5), (22, 0x3fffe6), (23, 0x7ffff1), (26, 0x3ffffe0), (26, 0x3ffffe1), (20, 0xfffeb),
  (19, 0x7fff1), (22, 0x3fffe7), (23, 0x7ffff2), (22, 0x3fffe8), (25, 0x1ffffec), (26, 0x3ffffe2), (26, 0x3ffffe3),
  (26, 0x3ffffe4), (27, 0x7ffffde), (27, 0x7ffffdf), (26, 0x3ffffe5), (24, 0xfffff1), (25, 0x1ffffed),
  (19, 0x7fff2), (21, 0x1fffe3), (26, 0x3ffffe6), (27, 0x7ffffe0), (27, 0x7ffffe1), (26, 0x3ffffe7),
  (27, 0x7ffffe2), (24, 0xfffff2), (21, 0x1fffe4), (21, 0x1fffe5), (26, 0x3ffffe8), (26, 0x3ffffe9),
  (28, 0xffffffd), (27, 0x7ffffe3), (27, 0x7ffffe4), (27, 0x7ffffe5), (20, 0xfffec), (24, 0xfffff3), (20, 0xfffed),
  (21, 0x1fffe6), (22, 0x3fffe9), (21, 0x1fffe7), (21, 0x1fffe8), (23, 0x7ffff3), (22, 0x3fffea), (22, 0x3fffeb),
  (25, 0x1ffffee), (25, 0x1ffffef), (24, 0xfffff4), (24, 0xfffff5), (26, 0x3ffffea), (23, 0x7ffff4),
  (26, 0x3ffffeb), (27, 0x7ffffe6), (26, 0x3ffffec), (26, 0x3ffffed), (27, 0x7ffffe7), (27, 0x7ffffe8),
  (27, 0x7ffffe9), (27, 0x7ffffea), (27, 0x7ffffeb), (28, 0xffffffe), (27, 0x7ffffec), (27, 0x7ffffed),
  (27, 0x7ffffee), (27, 0x7ffffef), (27, 0x7fffff0), (26, 0x3ffffee), (30, 0x3fffffff)]

/-- Sixteen states of the decoder: for every group of four bits the next state, a byte and flags. -/
abbrev DecodeRows := List (List (Nat × UInt8 × UInt8))

section Rows

/--
The states that the bits behind a symbol lead to, with the flags for the symbol.

The last one is reached by ones only, with which a string may end.
The source writes these entries out for every symbol; here they are written once for each number of bits.
-/
def restStates : Nat → List (Nat × UInt8)
  | 0 => [(0, 2)]
  | 1 => [(1, 2), (22, 3)]
  | 2 => [(2, 2), (9, 2), (23, 2), (40, 3)]
  | _ => [(3, 2), (6, 2), (10, 2), (15, 2), (24, 2), (31, 2), (41, 2), (56, 3)]

/-- The entries for symbols that end some bits before the end of the group. -/
def symbols (rest : Nat) (bytes : List UInt8) : List (Nat × UInt8 × UInt8) :=
  bytes.flatMap fun byte => (restStates rest).map fun (state, flags) => (state, byte, flags)

/-- The entries for groups in which no symbol ends. -/
def moves (states : List Nat) : List (Nat × UInt8 × UInt8) := states.map fun state => (state, 0, 0)

/-- The states from 0 on. -/
def decodeRows0 : DecodeRows := [
  moves [4, 5, 7, 8, 11, 12, 16, 19, 25, 28, 32, 35, 42, 49, 57] ++ [(64, 0, 1)],
  symbols 0 [48, 49, 50, 97, 99, 101, 105, 111, 115, 116] ++ moves [13, 14, 17, 18, 20, 21],
  symbols 1 [48, 49, 50, 97, 99, 101, 105, 111],
  symbols 2 [48, 49, 50, 97],
  symbols 3 [48, 49],
  symbols 3 [50, 97],
  symbols 2 [99, 101, 105, 111],
  symbols 3 [99, 101],
  symbols 3 [105, 111],
  symbols 1 [115, 116] ++ symbols 0 [32, 37, 45, 46, 47, 51, 52, 53, 54, 55, 56, 57],
  symbols 2 [115, 116] ++ symbols 1 [32, 37, 45, 46],
  symbols 3 [115, 116],
  symbols 2 [32, 37, 45, 46],
  symbols 3 [32, 37],
  symbols 3 [45, 46],
  symbols 1 [47, 51, 52, 53, 54, 55, 56, 57]]

/-- The states from 16 on. -/
def decodeRows16 : DecodeRows := [
  symbols 2 [47, 51, 52, 53],
  symbols 3 [47, 51],
  symbols 3 [52, 53],
  symbols 2 [54, 55, 56, 57],
  symbols 3 [54, 55],
  symbols 3 [56, 57],
  moves [26, 27, 29, 30, 33, 34, 36, 37, 43, 46, 50, 53, 58, 61, 65] ++ [(68, 0, 1)],
  symbols 0 [61, 65, 95, 98, 100, 102, 103, 104, 108, 109, 110, 112, 114, 117] ++ moves [38, 39],
  symbols 1 [61, 65, 95, 98, 100, 102, 103, 104],
  symbols 2 [61, 65, 95, 98],
  symbols 3 [61, 65],
  symbols 3 [95, 98],
  symbols 2 [100, 102, 103, 104],
  symbols 3 [100, 102],
  symbols 3 [103, 104],
  symbols 1 [108, 109, 110, 112, 114, 117] ++ symbols 0 [58, 66, 67, 68]]

/-- The states from 32 on. -/
def decodeRows32 : DecodeRows := [
  symbols 2 [108, 109, 110, 112],
  symbols 3 [108, 109],
  symbols 3 [110, 112],
  symbols 2 [114, 117] ++ symbols 1 [58, 66, 67, 68],
  symbols 3 [114, 117],
  symbols 2 [58, 66, 67, 68],
  symbols 3 [58, 66],
  symbols 3 [67, 68],
  moves [44, 45, 47, 48, 51, 52, 54, 55, 59, 60, 62, 63, 66, 67, 69] ++ [(72, 0, 1)],
  symbols 0 [69, 70, 71, 72, 73, 74, 75, 76, 77, 78, 79, 80, 81, 82, 83, 84],
  symbols 1 [69, 70, 71, 72, 73, 74, 75, 76],
  symbols 2 [69, 70, 71, 72],
  symbols 3 [69, 70],
  symbols 3 [71, 72],
  symbols 2 [73, 74, 75, 76],
  symbols 3 [73, 74]]

/-- The states from 48 on. -/
def decodeRows48 : DecodeRows := [
  symbols 3 [75, 76],
  symbols 1 [77, 78, 79, 80, 81, 82, 83, 84],
  symbols 2 [77, 78, 79, 80],
  symbols 3 [77, 78],
  symbols 3 [79, 80],
  symbols 2 [81, 82, 83, 84],
  symbols 3 [81, 82],
  symbols 3 [83, 84],
  symbols 0 [85, 86, 87, 89, 106, 107, 113, 118, 119, 120, 121, 122] ++ moves [70, 71, 73] ++ [(74, 0, 1)],
  symbols 1 [85, 86, 87, 89, 106, 107, 113, 118],
  symbols 2 [85, 86, 87, 89],
  symbols 3 [85, 86],
  symbols 3 [87, 89],
  symbols 2 [106, 107, 113, 118],
  symbols 3 [106, 107],
  symbols 3 [113, 118]]

/-- The states from 64 on. -/
def decodeRows64 : DecodeRows := [
  symbols 1 [119, 120, 121, 122] ++ symbols 0 [38, 42, 44, 59, 88, 90] ++ moves [75, 78],
  symbols 2 [119, 120, 121, 122],
  symbols 3 [119, 120],
  symbols 3 [121, 122],
  symbols 1 [38, 42, 44, 59, 88, 90] ++ moves [76, 77, 79, 81],
  symbols 2 [38, 42, 44, 59],
  symbols 3 [38, 42],
  symbols 3 [44, 59],
  symbols 2 [88, 90] ++ symbols 0 [33, 34, 40, 41, 63] ++ moves [80, 82, 84],
  symbols 3 [88, 90],
  symbols 1 [33, 34, 40, 41, 63] ++ symbols 0 [39, 43, 124] ++ moves [83, 85, 88],
  symbols 2 [33, 34, 40, 41],
  symbols 3 [33, 34],
  symbols 3 [40, 41],
  symbols 2 [63] ++ symbols 1 [39, 43, 124] ++ symbols 0 [35, 62] ++ moves [86, 87, 89, 90],
  symbols 3 [63] ++ symbols 2 [39, 43]]

/-- The states from 80 on. -/
def decodeRows80 : DecodeRows := [
  symbols 3 [39, 43],
  symbols 2 [124] ++ symbols 1 [35, 62] ++ symbols 0 [0, 36, 64, 91, 93, 126] ++ moves [91, 92],
  symbols 3 [124] ++ symbols 2 [35, 62],
  symbols 3 [35, 62],
  symbols 1 [0, 36, 64, 91, 93, 126] ++ symbols 0 [94, 125] ++ moves [93, 94],
  symbols 2 [0, 36, 64, 91],
  symbols 3 [0, 36],
  symbols 3 [64, 91],
  symbols 2 [93, 126] ++ symbols 1 [94, 125] ++ symbols 0 [60, 96, 123] ++ moves [95],
  symbols 3 [93, 126],
  symbols 2 [94, 125] ++ symbols 1 [60, 96, 123] ++ moves [96, 110],
  symbols 3 [94, 125],
  symbols 2 [60, 96, 123] ++ moves [97, 101, 111, 133],
  symbols 3 [60, 96],
  symbols 3 [123] ++ moves [98, 99, 102, 105, 112, 119, 134, 153],
  symbols 0 [92, 195, 208] ++ moves [100, 103, 104, 106, 107, 113, 116, 120, 126, 135, 142, 154, 169]]

/-- The states from 96 on. -/
def decodeRows96 : DecodeRows := [
  symbols 1 [92, 195, 208] ++ symbols 0 [128, 130, 131, 162, 184, 194, 224, 226] ++ moves [108, 109],
  symbols 2 [92, 195, 208] ++ symbols 1 [128, 130],
  symbols 3 [92, 195],
  symbols 3 [208] ++ symbols 2 [128, 130],
  symbols 3 [128, 130],
  symbols 1 [131, 162, 184, 194, 224, 226] ++ symbols 0 [153, 161, 167, 172],
  symbols 2 [131, 162, 184, 194],
  symbols 3 [131, 162],
  symbols 3 [184, 194],
  symbols 2 [224, 226] ++ symbols 1 [153, 161, 167, 172],
  symbols 3 [224, 226],
  symbols 2 [153, 161, 167, 172],
  symbols 3 [153, 161],
  symbols 3 [167, 172],
  moves [114, 115, 117, 118, 121, 123, 127, 130, 136, 139, 143, 146, 155, 162, 170, 180],
  symbols 0 [176, 177, 179, 209, 216, 217, 227, 229, 230] ++ moves [122, 124, 125, 128, 129, 131, 132]]

/-- The states from 112 on. -/
def decodeRows112 : DecodeRows := [
  symbols 1 [176, 177, 179, 209, 216, 217, 227, 229],
  symbols 2 [176, 177, 179, 209],
  symbols 3 [176, 177],
  symbols 3 [179, 209],
  symbols 2 [216, 217, 227, 229],
  symbols 3 [216, 217],
  symbols 3 [227, 229],
  symbols 1 [230] ++ symbols 0 [129, 132, 133, 134, 136, 146, 154, 156, 160, 163, 164, 169, 170, 173],
  symbols 2 [230] ++ symbols 1 [129, 132, 133, 134, 136, 146],
  symbols 3 [230] ++ symbols 2 [129, 132],
  symbols 3 [129, 132],
  symbols 2 [133, 134, 136, 146],
  symbols 3 [133, 134],
  symbols 3 [136, 146],
  symbols 1 [154, 156, 160, 163, 164, 169, 170, 173],
  symbols 2 [154, 156, 160, 163]]

/-- The states from 128 on. -/
def decodeRows128 : DecodeRows := [
  symbols 3 [154, 156],
  symbols 3 [160, 163],
  symbols 2 [164, 169, 170, 173],
  symbols 3 [164, 169],
  symbols 3 [170, 173],
  moves [137, 138, 140, 141, 144, 145, 147, 150, 156, 159, 163, 166, 171, 174, 181, 190],
  symbols 0 [178, 181, 185, 186, 187, 189, 190, 196, 198, 228, 232, 233] ++ moves [148, 149, 151, 152],
  symbols 1 [178, 181, 185, 186, 187, 189, 190, 196],
  symbols 2 [178, 181, 185, 186],
  symbols 3 [178, 181],
  symbols 3 [185, 186],
  symbols 2 [187, 189, 190, 196],
  symbols 3 [187, 189],
  symbols 3 [190, 196],
  symbols 1 [198, 228, 232, 233] ++ symbols 0 [1, 135, 137, 138, 139, 140, 141, 143],
  symbols 2 [198, 228, 232, 233]]

/-- The states from 144 on. -/
def decodeRows144 : DecodeRows := [
  symbols 3 [198, 228],
  symbols 3 [232, 233],
  symbols 1 [1, 135, 137, 138, 139, 140, 141, 143],
  symbols 2 [1, 135, 137, 138],
  symbols 3 [1, 135],
  symbols 3 [137, 138],
  symbols 2 [139, 140, 141, 143],
  symbols 3 [139, 140],
  symbols 3 [141, 143],
  moves [157, 158, 160, 161, 164, 165, 167, 168, 172, 173, 175, 177, 182, 185, 191, 207],
  symbols 0 [147, 149, 150, 151, 152, 155, 157, 158, 165, 166, 168, 174, 175, 180, 182, 183],
  symbols 1 [147, 149, 150, 151, 152, 155, 157, 158],
  symbols 2 [147, 149, 150, 151],
  symbols 3 [147, 149],
  symbols 3 [150, 151],
  symbols 2 [152, 155, 157, 158]]

/-- The states from 160 on. -/
def decodeRows160 : DecodeRows := [
  symbols 3 [152, 155],
  symbols 3 [157, 158],
  symbols 1 [165, 166, 168, 174, 175, 180, 182, 183],
  symbols 2 [165, 166, 168, 174],
  symbols 3 [165, 166],
  symbols 3 [168, 174],
  symbols 2 [175, 180, 182, 183],
  symbols 3 [175, 180],
  symbols 3 [182, 183],
  symbols 0 [188, 191, 197, 231, 239] ++ moves [176, 178, 179, 183, 184, 186, 187, 192, 199, 208, 223],
  symbols 1 [188, 191, 197, 231, 239] ++ symbols 0 [9, 142, 144, 145, 148, 159],
  symbols 2 [188, 191, 197, 231],
  symbols 3 [188, 191],
  symbols 3 [197, 231],
  symbols 2 [239] ++ symbols 1 [9, 142, 144, 145, 148, 159],
  symbols 3 [239] ++ symbols 2 [9, 142]]

/-- The states from 176 on. -/
def decodeRows176 : DecodeRows := [
  symbols 3 [9, 142],
  symbols 2 [144, 145, 148, 159],
  symbols 3 [144, 145],
  symbols 3 [148, 159],
  symbols 0 [171, 206, 215, 225, 236, 237] ++ moves [188, 189, 193, 196, 200, 203, 209, 216, 224, 238],
  symbols 1 [171, 206, 215, 225, 236, 237] ++ symbols 0 [199, 207, 234, 235],
  symbols 2 [171, 206, 215, 225],
  symbols 3 [171, 206],
  symbols 3 [215, 225],
  symbols 2 [236, 237] ++ symbols 1 [199, 207, 234, 235],
  symbols 3 [236, 237],
  symbols 2 [199, 207, 234, 235],
  symbols 3 [199, 207],
  symbols 3 [234, 235],
  moves [194, 195, 197, 198, 201, 202, 204, 205, 210, 213, 217, 220, 225, 231, 239, 246],
  symbols 0 [192, 193, 200, 201, 202, 205, 210, 213, 218, 219, 238, 240, 242, 243, 255] ++ moves [206]]

/-- The states from 192 on. -/
def decodeRows192 : DecodeRows := [
  symbols 1 [192, 193, 200, 201, 202, 205, 210, 213],
  symbols 2 [192, 193, 200, 201],
  symbols 3 [192, 193],
  symbols 3 [200, 201],
  symbols 2 [202, 205, 210, 213],
  symbols 3 [202, 205],
  symbols 3 [210, 213],
  symbols 1 [218, 219, 238, 240, 242, 243, 255] ++ symbols 0 [203, 204],
  symbols 2 [218, 219, 238, 240],
  symbols 3 [218, 219],
  symbols 3 [238, 240],
  symbols 2 [242, 243, 255] ++ symbols 1 [203, 204],
  symbols 3 [242, 243],
  symbols 3 [255] ++ symbols 2 [203, 204],
  symbols 3 [203, 204],
  moves [211, 212, 214, 215, 218, 219, 221, 222, 226, 228, 232, 235, 240, 243, 247, 250]]

/-- The states from 208 on. -/
def decodeRows208 : DecodeRows := [
  symbols 0 [211, 212, 214, 221, 222, 223, 241, 244, 245, 246, 247, 248, 250, 251, 252, 253],
  symbols 1 [211, 212, 214, 221, 222, 223, 241, 244],
  symbols 2 [211, 212, 214, 221],
  symbols 3 [211, 212],
  symbols 3 [214, 221],
  symbols 2 [222, 223, 241, 244],
  symbols 3 [222, 223],
  symbols 3 [241, 244],
  symbols 1 [245, 246, 247, 248, 250, 251, 252, 253],
  symbols 2 [245, 246, 247, 248],
  symbols 3 [245, 246],
  symbols 3 [247, 248],
  symbols 2 [250, 251, 252, 253],
  symbols 3 [250, 251],
  symbols 3 [252, 253],
  symbols 0 [254] ++ moves [227, 229, 230, 233, 234, 236, 237, 241, 242, 244, 245, 248, 249, 251, 252]]

/-- The states from 224 on. -/
def decodeRows224 : DecodeRows := [
  symbols 1 [254] ++ symbols 0 [2, 3, 4, 5, 6, 7, 8, 11, 12, 14, 15, 16, 17, 18],
  symbols 2 [254] ++ symbols 1 [2, 3, 4, 5, 6, 7],
  symbols 3 [254] ++ symbols 2 [2, 3],
  symbols 3 [2, 3],
  symbols 2 [4, 5, 6, 7],
  symbols 3 [4, 5],
  symbols 3 [6, 7],
  symbols 1 [8, 11, 12, 14, 15, 16, 17, 18],
  symbols 2 [8, 11, 12, 14],
  symbols 3 [8, 11],
  symbols 3 [12, 14],
  symbols 2 [15, 16, 17, 18],
  symbols 3 [15, 16],
  symbols 3 [17, 18],
  symbols 0 [19, 20, 21, 23, 24, 25, 26, 27, 28, 29, 30, 31, 127, 220, 249] ++ moves [253],
  symbols 1 [19, 20, 21, 23, 24, 25, 26, 27]]

/-- The states from 240 on. -/
def decodeRows240 : DecodeRows := [
  symbols 2 [19, 20, 21, 23],
  symbols 3 [19, 20],
  symbols 3 [21, 23],
  symbols 2 [24, 25, 26, 27],
  symbols 3 [24, 25],
  symbols 3 [26, 27],
  symbols 1 [28, 29, 30, 31, 127, 220, 249] ++ moves [254, 255],
  symbols 2 [28, 29, 30, 31],
  symbols 3 [28, 29],
  symbols 3 [30, 31],
  symbols 2 [127, 220, 249] ++ symbols 0 [10, 13, 22] ++ [(0, 0, 4)],
  symbols 3 [127, 220],
  symbols 3 [249] ++ symbols 1 [10, 13, 22] ++ [(0, 0, 4), (0, 0, 5)],
  symbols 2 [10, 13, 22] ++ [(0, 0, 4), (0, 0, 4), (0, 0, 4), (0, 0, 5)],
  symbols 3 [10, 13],
  symbols 3 [22] ++ [(0, 0, 4), (0, 0, 4), (0, 0, 4), (0, 0, 4), (0, 0, 4), (0, 0, 4), (0, 0, 4), (0, 0, 5)]]

end Rows

/-- For every state and every group of four bits: the next state, a byte and flags. -/
def decodeTable : List (List (Nat × UInt8 × UInt8)) :=
  List.flatten [
    decodeRows0, decodeRows16, decodeRows32, decodeRows48, decodeRows64, decodeRows80, decodeRows96, decodeRows112,
    decodeRows128, decodeRows144, decodeRows160, decodeRows176, decodeRows192, decodeRows208, decodeRows224,
    decodeRows240]

end Huffman

end Flexicast
