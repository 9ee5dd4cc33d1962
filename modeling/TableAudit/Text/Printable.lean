import TableAudit.Text.CodePoint
import TableAudit.Text.CodeSet

namespace TableAudit.Text

/-- The code points above 127 that have no visible form of their own. -/
def hiddenTable : String :=
"128 32 13 0 715 1 7 3 8 0 2 0 21 0 398 0 39 1 51 1 4 0 56 7 28 3 7 16 23 0 193 0 49 1 60 1 102
13 60 1 50 1 16 0 29 1 2 0 12 4 32 8 75 0 162 0 9 1 3 1 23 0 8 0 2 2 5 1 10 1 3 1 5 7 2 3 3 0 6
1 26 1 4 0 7 3 3 1 23 0 8 0 3 0 3 0 3 1 2 0 6 3 3 1 4 2 2 6 5 0 2 6 18 9 4 0 10 0 4 0 23 0 8 0 3
0 6 1 11 0 4 0 4 1 2 14 5 1 13 6 8 0 4 0 9 1 3 1 23 0 8 0 3 0 6 1 10 1 3 1 4 6 4 3 3 0 6 1 19 9
3 0 7 2 4 0 5 2 3 0 2 0 3 2 3 2 4 2 13 3 6 2 4 0 5 1 2 5 2 13 22 4 14 0 4 0 24 0 17 1 10 0 4 0 5
6 3 0 4 1 2 1 5 1 11 6 23 0 4 0 24 0 11 0 6 1 10 0 4 0 5 6 3 5 3 0 5 1 11 0 3 12 14 0 4 0 52 0 4
0 7 3 17 1 27 0 4 0 19 2 25 0 10 0 2 1 8 2 2 3 7 0 2 0 9 5 11 1 4 11 59 3 30 36 3 0 2 0 6 0 25 0
2 0 24 1 6 0 2 0 7 1 11 1 5 31 73 0 37 3 40 0 37 0 16 0 14 36 199 0 2 4 2 1 378 0 5 1 8 0 2 0 5
1 42 0 5 1 34 0 5 1 8 0 2 0 5 1 16 0 58 0 5 1 68 1 33 2 27 5 87 1 7 1 641 0 29 2 90 6 23 8 25 8
21 11 14 0 4 0 3 11 95 1 11 5 11 5 15 0 12 5 90 6 44 4 71 9 32 0 13 3 13 3 2 2 43 1 6 10 45 3 27
5 12 2 63 1 66 0 30 1 12 5 11 5 15 1 32 48 78 2 48 0 117 7 61 2 16 2 61 6 44 1 12 7 44 4 535 1 7
1 39 1 7 1 9 0 2 0 2 0 2 0 32 1 54 0 16 0 15 1 7 0 20 1 4 0 10 16 25 7 48 16 3 1 28 0 14 2 34 14
34 14 141 3 664 24 12 20 1813 1 33 0 350 4 46 0 2 4 2 1 57 6 3 13 25 8 8 0 8 0 8 0 8 0 8 0 8 0 8
0 8 0 127 33 27 0 90 11 215 25 13 4 64 0 87 1 104 4 44 0 95 0 85 11 48 0 29294 2 56 8 349 19 185
7 204 4 3 0 2 0 6 23 60 2 11 5 57 7 71 7 13 5 117 10 31 2 79 0 12 3 34 0 56 8 15 1 11 1 104 23
29 9 7 1 7 1 7 8 8 0 8 0 61 3 127 1 11 5 11173 11 24 3 50 3 2049 6399 367 1 107 37 8 11 6 4 27 0
6 0 2 0 3 0 3 0 126 15 446 1 55 6 2 31 43 5 52 0 20 0 5 3 6 0 136 3 191 2 7 1 7 1 7 1 4 2 8 0 8
12 3 1 13 0 27 0 20 0 3 0 16 1 15 33 124 4 4 3 46 2 89 0 14 2 2 46 47 129 30 2 50 14 29 3 37 8
31 4 44 4 31 0 38 3 15 41 159 1 11 5 37 3 37 3 41 7 53 10 13 0 16 0 8 0 3 0 12 0 16 0 8 0 3 66
312 8 23 9 9 23 7 0 43 0 10 68 7 1 2 0 45 0 3 2 2 1 24 0 73 7 10 47 20 0 3 4 34 2 28 4 2 63 57 3
21 1 51 0 3 4 9 0 4 0 30 1 4 3 11 6 10 6 65 31 40 3 13 8 55 2 30 1 28 4 27 6 5 11 8 79 74 54 52
12 52 6 47 7 11 293 32 0 43 0 4 1 3 77 41 7 43 21 27 37 29 19 24 8 79 3 37 8 63 0 6 12 26 6 11 5
54 0 19 7 40 8 97 0 21 10 19 0 45 64 8 0 2 0 5 0 16 0 12 5 60 4 11 5 5 0 9 1 3 1 23 0 8 0 3 0 6
0 11 1 3 1 4 1 2 5 2 4 8 1 8 2 6 138 93 0 6 29 73 7 11 165 55 1 39 33 70 10 11 5 14 18 59 5 11
53 28 1 16 3 24 184 61 99 84 11 9 1 2 1 9 0 3 0 31 0 3 1 13 8 11 69 9 1 47 1 12 26 73 7 84 12 74
262 10 0 46 0 15 9 30 2 33 1 23 0 15 72 8 0 3 0 45 2 2 0 3 0 10 7 11 5 7 0 3 0 38 0 3 0 7 6 11
309 26 182 2 14 51 12 924 101 112 0 6 10 197 2635 100 12 1072 4048 584 8632 570 6 32 0 11 3 82 0
11 5 31 1 7 9 71 9 11 0 8 0 22 4 20 687 92 100 76 3 58 6 18 63 6 10 3 13 6137 7 1239 41 10 8934
5 0 8 0 3 0 292 44 4 16 5 7 397 2307 108 4 14 2 10 6 11 1 5 4703 47 1 24 8 117 59 247 9 40 1 75
7 113 20 71 153 21 11 88 8 26 134 86 0 72 0 3 1 2 1 3 1 5 0 13 0 2 0 8 0 66 0 5 1 9 0 8 0 29 0 5
0 6 0 2 2 8 0 341 1 293 1 703 14 6 0 16 1103 32 224 8 0 18 1 8 0 3 0 6 212 46 2 15 1 11 3 3 319
32 16 59 4 2 1247 8 0 5 0 3 0 16 0 198 1 17 40 77 3 11 3 3 784 69 75 62 193 5 0 28 0 3 0 2 1 2 0
11 0 5 0 2 0 2 5 2 3 2 0 2 0 2 0 4 0 3 0 2 1 2 0 2 0 2 0 2 0 2 0 3 0 2 1 5 0 8 0 5 0 5 0 2 0 11
0 18 4 4 0 6 0 18 51 3 269 45 3 101 11 16 1 16 0 16 0 38 9 175 55 30 12 45 3 10 6 3 13 7 153 985
4 17 2 14 2 117 11 90 6 13 3 2 14 13 3 57 7 11 5 41 7 31 1 3 77 341 11 15 1 6 2 6 2 8 8 30 2 12
4 7 9 11 5 9 7 8 8 148 0 56 36 11 1029 42721 31 4154 6 223 1 5763 13 7474 3102 543 1505 4940
716212 241 196111"

def hidden : CodeSet :=
  CodeSet.ofTable hiddenTable

/-- A character that a literal shows as it is. The ASCII ones are the blank and the graphic
    characters; above them the table decides, and no surrogate is one. -/
def isPrintable (c : Char) : Bool :=
  if c.toNat < 128 then 32 ≤ c.toNat && c.toNat < 127
  else !isSurrogate c && !hidden.contains c.toNat

end TableAudit.Text
