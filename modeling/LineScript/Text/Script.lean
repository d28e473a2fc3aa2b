import LineScript.Text.Table

/-!
# Scripts

The code points that belong to one script, for the scripts that patterns may name.
-/

namespace LineScript.Text

/-- Latin script. -/
def latinScript : CodeSet := .ofText "
65 26 6 26 47 1 15 1 5 23 1 31 1 449 39 5 6683 38 6 49 5 4 5 13 1 70 65 256 369 1 13 1 16 13 141 2
6 1 27 1 17 41 2775 32 31394 102 3 64 5 2 1 1 1 5 24 14 816 43 1 9 1 4 20374 7 1050 26 6 26 2085 6
1 42 1 9 55109 31 6 6"

/-- Greek script. -/
def greekScript : CodeSet := .ofText "
880 4 1 3 2 4 1 1 4 1 1 1 1 3 1 1 1 20 1 63 14 16 6438 5 50 5 4 5 84 1 320 22 2 6 2 38 2 6 2 8 1 1
1 1 1 1 1 31 2 53 1 15 1 14 2 6 1 19 2 3 1 9 295 1 35390 1 21978 79 17 1 53343 70"

/-- Cyrillic script. -/
def cyrillicScript : CodeSet := .ofText "
1024 133 2 169 5968 9 162 1 76 1 4199 32 30784 96 22414 2 57856 62 33 1"

/-- Armenian script. -/
def armenianScript : CodeSet := .ofText "
1329 38 2 50 2 3 62851 5"

/-- Hebrew script. -/
def hebrewScript : CodeSet := .ofText "
1425 55 8 27 4 6 62760 26 1 5 1 1 1 2 1 2 1 10"

/-- Arabic script. -/
def arabicScript : CodeSet := .ofText "
1536 5 1 6 1 14 1 3 1 32 1 10 11 26 1 108 1 34 80 48 240 31 1 2 6 74 1 29 62032 115 16 363 2 80 2
54 7 1 32 16 112 5 1 135 3939 31 126 3 57088 4 1 27 1 2 1 1 2 1 1 10 1 4 1 1 1 1 6 1 4 1 1 1 1 1 1
3 1 2 1 1 2 1 1 1 1 1 1 1 1 1 1 2 1 1 2 4 1 7 1 4 1 4 1 1 1 10 1 17 5 3 1 5 1 17 52 2"

/-- Devanagari. -/
def devanagariScript : CodeSet := .ofText "
2304 81 4 15 2 26 40800 32 29184 10"

/-- Thai script. -/
def thaiScript : CodeSet := .ofText "
3585 58 5 28"

/-- Georgian script. -/
def georgianScript : CodeSet := .ofText "
4256 38 1 1 5 1 2 43 1 4 2960 43 2 3 4160 38 1 1 5 1"

/-- Hangul. -/
def hangulScript : CodeSet := .ofText "
4352 256 7726 2 257 94 113 31 65 31 30433 29 643 11172 12 23 4 49 10148 31 3 6 2 6 2 6 2 3"

/-- Hiragana. -/
def hiraganaScript : CodeSet := .ofText "
12353 86 6 3 98145 287 18 1 29 3 16557 1"

/-- Katakana. -/
def katakanaScript : CodeSet := .ofText "
12449 90 2 3 240 16 208 47 1 88 52238 10 1 45 45138 4 1 7 1 2 1 1 287 3 50 1 14 4"

/-- Han script. -/
def hanScript : CodeSet := .ofText "
11904 26 1 89 12 214 47 1 1 1 25 9 14 4 964 6592 64 20992 22784 366 2 106 29960 2 12 2 36878 42720
32 4154 6 222 2 5762 14 7473 3103 542 1506 4939 5 4192"

/-- Characters shared by scripts. -/
def commonScript : CodeSet := .ofText "
0 65 26 6 26 47 1 15 1 5 23 1 31 1 449 39 5 5 2 20 116 1 9 1 6 1 1 1 637 1 6 1 14 1 3 1 32 1 156 1
516 1 129 2 1241 1 405 4 290 1 1519 3 71 2 203 2 1 1 1229 1 13 1 7 4 1 6 1 3 2 1 773 12 2 87 1 11
3 11 1 15 17 33 63 38 1 3 2 6 1 27 1 17 41 3 4 663 25 11 21 928 256 628 2 32 1 105 512 94 402 12 4
5 1 1 1 25 15 8 4 4 91 2 3 1 90 2 147 16 32 36 60 64 31 81 47 1 88 168 6592 64 22784 34 102 3 165
10 244 1 160 1 395 1 14 2 20946 2 208 10 22 35 1 19 1 4 147 1 1 32 26 6 26 11 10 1 45 2 64 7 1 7
10 5 258 3 4 45 3 9 80 13 51 45 228 27 47524 4 4780 116 60 246 10 39 2 62 3 17 8 2 7 30 4 61 213
20 12 20 12 87 9 25 135 85 1 71 1 2 2 1 2 2 2 4 1 12 1 1 1 7 1 65 1 4 2 8 1 7 1 28 1 4 1 5 1 1 3 7
1 340 2 292 2 50 5233 68 76 61 706 44 4 100 12 15 2 15 1 15 1 37 10 174 56 26 1 2 13 44 4 9 7 2 14
6 154 984 4 17 3 13 3 119 4 95 6 12 4 1 15 12 4 56 8 10 6 40 8 30 2 2 78 340 12 14 2 13 3 9 7 46 1
7 8 14 4 9 7 9 7 147 1 55 37 10 787463 1 30 96"

/-- Characters that take the script of the one before. -/
def inheritedScript : CodeSet := .ofText "
768 112 277 2 452 11 26 1 736 4 4443 31 513 3 1 13 1 7 4 1 6 1 3 2 198 64 524 2 194 33 3897 4 107
2 52581 16 16 14 975 1 226 1 4186 1 48068 46 2 23 544 3 17 8 2 7 30 4 798546 240"

/-- The scripts under the long and the short form of their names, in small letters. -/
def scripts : List (List String × CodeSet) :=
  [(["latin", "latn"], latinScript),
    (["greek", "grek"], greekScript),
    (["cyrillic", "cyrl"], cyrillicScript),
    (["armenian", "armn"], armenianScript),
    (["hebrew", "hebr"], hebrewScript),
    (["arabic", "arab"], arabicScript),
    (["devanagari", "deva"], devanagariScript),
    (["thai"], thaiScript),
    (["georgian", "geor"], georgianScript),
    (["hangul", "hang"], hangulScript),
    (["hiragana", "hira"], hiraganaScript),
    (["katakana", "kana"], katakanaScript),
    (["han", "hani"], hanScript),
    (["common", "zyyy"], commonScript),
    (["inherited", "zinh"], inheritedScript)]

/-- The script of a name in small letters. -/
def script? (name : String) : Option CodeSet :=
  (scripts.find? fun entry => entry.1.contains name).map Prod.snd

end LineScript.Text
