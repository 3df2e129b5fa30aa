/-!
# Scripts

The code points of the scripts that a pattern may name, as runs from a first to a last code point,
in ascending order.
-/

namespace CodeAtlas.Text.Script

/-- Code points of the script. -/
def latinRuns : List (Nat × Nat) := [
  (65, 90), (97, 122), (170, 170), (186, 186), (192, 214), (216, 246), (248, 696), (736, 740),
  (7424, 7461), (7491, 7525), (7531, 7543), (7545, 7615), (7680, 7935), (8336, 8348),
  (8490, 8491), (8544, 8584), (11360, 11388), (11390, 11391), (42786, 42863), (42865, 42887),
  (42891, 42954), (42960, 42961), (42963, 42963), (42965, 42969), (42997, 42999), (43001, 43007),
  (43824, 43866), (43868, 43876), (43878, 43881), (64256, 64262), (65313, 65338), (65345, 65370),
  (67456, 67456), (67459, 67461), (67463, 67504), (67506, 67506), (67514, 67514),
  (122624, 122654)]

/-- Code points of the script. -/
def greekRuns : List (Nat × Nat) := [
  (880, 887), (890, 893), (895, 895), (900, 900), (902, 902), (904, 906), (908, 908), (910, 929),
  (931, 993), (1008, 1023), (7462, 7466), (7526, 7530), (7936, 7957), (7960, 7965), (7968, 8005),
  (8008, 8013), (8016, 8023), (8025, 8025), (8027, 8027), (8029, 8029), (8031, 8061),
  (8064, 8116), (8118, 8132), (8134, 8147), (8150, 8155), (8157, 8175), (8178, 8180),
  (8182, 8190), (8486, 8486), (43877, 43877), (65856, 65933), (65952, 65952), (119296, 119361),
  (119365, 119365)]

/-- Code points of the script. -/
def cyrillicRuns : List (Nat × Nat) := [
  (1024, 1156), (1159, 1327), (7296, 7304), (7467, 7467), (11744, 11775), (42560, 42610),
  (42612, 42651), (42654, 42655), (65070, 65071)]

/-- Code points of the script. -/
def hanRuns : List (Nat × Nat) := [
  (11904, 11929), (11931, 12019), (12032, 12245), (12293, 12293), (12295, 12295), (12321, 12329),
  (12344, 12347), (13312, 19903), (19968, 40959), (63744, 64109), (64112, 64217),
  (131072, 173791), (173824, 177976), (177984, 178205), (178208, 183969), (183984, 191456),
  (194560, 195101), (196608, 201546)]

/-- Code points of the script. -/
def hiraganaRuns : List (Nat × Nat) := [
  (12353, 12438), (12445, 12447), (110593, 110878)]

/-- Code points of the script. -/
def katakanaRuns : List (Nat × Nat) := [
  (12449, 12538), (12541, 12543), (12784, 12799), (65382, 65391), (65393, 65437),
  (110576, 110579), (110581, 110587), (110589, 110590), (110592, 110592), (110880, 110882),
  (110948, 110951)]

/-- Code points of the script. -/
def hebrewRuns : List (Nat × Nat) := [
  (1425, 1479), (1488, 1514), (1519, 1524), (64285, 64310), (64312, 64316), (64318, 64318),
  (64320, 64321), (64323, 64324), (64326, 64335)]

/-- Code points of the script. -/
def arabicRuns : List (Nat × Nat) := [
  (1536, 1541), (1544, 1544), (1549, 1562), (1564, 1566), (1568, 1599), (1601, 1610),
  (1622, 1631), (1642, 1647), (1649, 1756), (1758, 1775), (1786, 1791), (1872, 1919),
  (2160, 2190), (2192, 2193), (2200, 2303), (64336, 64450), (64467, 64829), (64832, 64911),
  (64914, 64967), (64975, 64975), (65008, 65019), (65021, 65023), (65136, 65140), (65142, 65276),
  (126464, 126467), (126469, 126495), (126497, 126498), (126500, 126500), (126503, 126503),
  (126505, 126514), (126516, 126519), (126521, 126521), (126523, 126523), (126530, 126530),
  (126535, 126535), (126537, 126537), (126539, 126539), (126541, 126543), (126545, 126546),
  (126548, 126548), (126551, 126551), (126553, 126553), (126555, 126555), (126557, 126557),
  (126559, 126559), (126561, 126562), (126564, 126564), (126567, 126570), (126572, 126578),
  (126580, 126583), (126585, 126588), (126590, 126590), (126592, 126601), (126603, 126619),
  (126625, 126627), (126629, 126633), (126635, 126651), (126704, 126705)]

/-- Code points of the script. -/
def thaiRuns : List (Nat × Nat) := [
  (3585, 3642), (3648, 3675)]

/-- Code points of the script. -/
def hangulRuns : List (Nat × Nat) := [
  (4352, 4607), (12334, 12335), (12593, 12686), (43360, 43388), (44032, 55203), (55216, 55238),
  (55243, 55291)]

/-- Code points of the script. -/
def devanagariRuns : List (Nat × Nat) := [
  (2304, 2384), (2389, 2403), (2406, 2431), (43250, 43263)]

/-- The scripts by their names in lowercase. -/
def byName : List (String × List (Nat × Nat)) := [
  ("latin", latinRuns),
  ("greek", greekRuns),
  ("cyrillic", cyrillicRuns),
  ("han", hanRuns),
  ("hiragana", hiraganaRuns),
  ("katakana", katakanaRuns),
  ("hebrew", hebrewRuns),
  ("arabic", arabicRuns),
  ("thai", thaiRuns),
  ("hangul", hangulRuns),
  ("devanagari", devanagariRuns)]

end CodeAtlas.Text.Script
