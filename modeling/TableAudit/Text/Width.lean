import TableAudit.Text.CodeSet

namespace TableAudit.Text

/-- The code points that take no cell. -/
def zeroTable : String :=
"0 31 96 32 14 0 595 111 276 6 264 44 2 0 2 1 2 1 2 0 57 5 11 10 2 0 47 20 17 0 102 7 2 5 3 1 2
3 34 0 2 0 31 26 92 10 59 8 10 0 25 3 2 8 2 2 2 4 44 2 53 1 7 7 43 57 55 2 2 17 2 6 11 1 30 2
57 0 2 6 3 1 3 2 10 0 11 1 27 0 3 2 57 0 2 4 5 1 3 2 4 0 31 1 4 0 12 2 57 0 2 7 2 2 2 2 21 1
23 5 2 2 57 0 2 6 3 1 3 2 8 2 11 1 31 0 60 4 4 2 2 3 10 0 41 4 56 0 2 6 2 2 2 3 8 1 12 1 30 2
57 0 2 6 2 2 2 3 8 1 12 1 16 0 13 3 56 1 2 6 2 2 2 3 10 0 11 1 30 2 71 0 5 5 2 0 2 7 19 1 62 0
3 6 13 7 99 0 3 8 12 6 74 1 28 0 2 0 2 0 5 1 50 19 2 1 6 10 2 35 10 0 101 19 24 3 5 2 2 2 3 6
4 3 14 11 2 0 11 3 195 159 350 2 947 3 29 2 30 1 31 1 65 31 10 0 46 4 118 1 35 0 119 11 5 11
220 4 58 9 2 28 3 0 49 30 50 4 48 16 39 8 13 2 31 12 57 13 49 19 153 2 2 20 5 0 7 0 3 2 199 63
524 4 25 6 50 4 2 9 97 32 3071 2 142 0 97 31 555 5 106 1 30165 3 2 9 33 1 81 1 273 0 4 0 5 0
24 4 5 0 84 1 51 17 27 17 14 0 39 7 26 12 45 3 48 13 37 0 68 13 13 0 9 1 46 2 51 0 2 2 3 1 6 1
2 0 42 4 6 1 237 7 2 1 11203 79 8991 0 738 15 17 15 208 0 250 2 514 0 227 0 150 4 1671 2 2 1 6
3 41 2 5 0 166 1 574 3 388 1 81 2 71 10 50 3 123 2 54 14 42 0 3 1 11 3 46 10 3 0 5 0 11 0 51 2
37 13 17 1 45 0 13 2 49 13 9 3 2 1 93 11 7 0 3 0 158 11 22 3 56 1 2 6 3 1 3 2 10 0 11 1 3 6 4
4 193 17 24 0 82 19 236 6 3 8 28 1 83 16 107 12 102 14 257 14 246 5 2 1 3 3 2 0 2 1 142 6 3 6
4 0 29 9 41 6 2 3 9 0 10 10 47 15 406 7 2 7 83 21 2 13 123 5 4 0 2 1 2 6 2 0 67 4 2 1 2 4 348
3 10 1 2 0 49 6 4 4 5358 16 7 14 13979 4 60 6 1049 0 2 54 8 3 82 0 12 1 19628 1 2 3 4701 45 3
22 543 4 4 21 3 6 31 3 149 2 1980 54 5 49 9 0 15 0 23 4 2 14 1361 6 2 16 3 6 2 1 2 4 101 0 161
6 376 0 62 3 509 3 993 6 110 6 2737 4 789506 0 31 95 129 239"

/-- The code points that take two cells. -/
def wideTable : String :=
"4352 95 4539 1 14 1 191 3 4 0 3 0 522 1 22 1 51 11 44 0 20 0 14 0 9 1 18 1 6 1 9 0 6 0 22 0 8
1 2 0 5 0 3 0 8 0 5 1 29 0 36 0 2 0 5 2 2 0 62 2 25 0 15 0 860 1 52 0 5 0 811 25 2 88 13 213
27 57 7 14 3 85 5 100 6 42 2 93 2 83 12 47 2 39 9 7023 65 22156 4 54 1178 28 644 11171 8541
511 785 9 23 34 2 18 2 3 150 95 128 6 28666 3 29 6135 9 1237 43 8 8936 3 2 6 2 1 2 290 16 0 30
2 3 0 15 3 9 395 15625 0 203 0 191 0 3 9 102 2 14 43 5 8 8 1 15 5 155 32 13 8 2 69 2 21 13 42
5 4 13 16 4 0 4 2 6 62 2 0 2 186 3 62 14 3 2 23 19 0 27 1 14 0 87 84 49 69 7 0 4 2 3 2 5 3 12
1 8 8 228 11 5 0 284 46 2 9 2 184 113 12 4 8 8 45 2 6 9 13 5 8 8 8 1288 65533 3 65533"

def zeroWidth : CodeSet :=
  CodeSet.ofTable zeroTable

def wide : CodeSet :=
  CodeSet.ofTable wideTable

/-- The number of cells of a character. -/
def width (c : Char) : Nat :=
  if zeroWidth.contains c.toNat then 0 else if wide.contains c.toNat then 2 else 1

end TableAudit.Text
