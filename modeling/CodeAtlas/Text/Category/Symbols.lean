/-!
# Runs of symbols

The code points of each general category of symbols, as runs from a first to a last code point, in
ascending order.
-/

namespace CodeAtlas.Text.Category

/-- Code points of general category Sm. -/
def mathSymbolRuns : List (Nat × Nat) := [
  (43, 43), (60, 62), (124, 124), (126, 126), (172, 172), (177, 177), (215, 215), (247, 247),
  (1014, 1014), (1542, 1544), (8260, 8260), (8274, 8274), (8314, 8316), (8330, 8332),
  (8472, 8472), (8512, 8516), (8523, 8523), (8592, 8596), (8602, 8603), (8608, 8608),
  (8611, 8611), (8614, 8614), (8622, 8622), (8654, 8655), (8658, 8658), (8660, 8660),
  (8692, 8959), (8992, 8993), (9084, 9084), (9115, 9139), (9180, 9185), (9655, 9655),
  (9665, 9665), (9720, 9727), (9839, 9839), (10176, 10180), (10183, 10213), (10224, 10239),
  (10496, 10626), (10649, 10711), (10716, 10747), (10750, 11007), (11056, 11076), (11079, 11084),
  (64297, 64297), (65122, 65122), (65124, 65126), (65291, 65291), (65308, 65310), (65372, 65372),
  (65374, 65374), (65506, 65506), (65513, 65516), (120513, 120513), (120539, 120539),
  (120571, 120571), (120597, 120597), (120629, 120629), (120655, 120655), (120687, 120687),
  (120713, 120713), (120745, 120745), (120771, 120771), (126704, 126705)]

/-- Code points of general category Sc. -/
def currencyRuns : List (Nat × Nat) := [
  (36, 36), (162, 165), (1423, 1423), (1547, 1547), (2046, 2047), (2546, 2547), (2555, 2555),
  (2801, 2801), (3065, 3065), (3647, 3647), (6107, 6107), (8352, 8384), (43064, 43064),
  (65020, 65020), (65129, 65129), (65284, 65284), (65504, 65505), (65509, 65510), (73693, 73696),
  (123647, 123647), (126128, 126128)]

/-- Code points of general category Sk. -/
def modifierSymbolRuns : List (Nat × Nat) := [
  (94, 94), (96, 96), (168, 168), (175, 175), (180, 180), (184, 184), (706, 709), (722, 735),
  (741, 747), (749, 749), (751, 767), (885, 885), (900, 901), (2184, 2184), (8125, 8125),
  (8127, 8129), (8141, 8143), (8157, 8159), (8173, 8175), (8189, 8190), (12443, 12444),
  (42752, 42774), (42784, 42785), (42889, 42890), (43867, 43867), (43882, 43883), (64434, 64450),
  (65342, 65342), (65344, 65344), (65507, 65507), (127995, 127999)]

/-- Code points of general category So. -/
def otherSymbolRuns : List (Nat × Nat) := [
  (166, 166), (169, 169), (174, 174), (176, 176), (1154, 1154), (1421, 1422), (1550, 1551),
  (1758, 1758), (1769, 1769), (1789, 1790), (2038, 2038), (2554, 2554), (2928, 2928),
  (3059, 3064), (3066, 3066), (3199, 3199), (3407, 3407), (3449, 3449), (3841, 3843),
  (3859, 3859), (3861, 3863), (3866, 3871), (3892, 3892), (3894, 3894), (3896, 3896),
  (4030, 4037), (4039, 4044), (4046, 4047), (4053, 4056), (4254, 4255), (5008, 5017),
  (5741, 5741), (6464, 6464), (6622, 6655), (7009, 7018), (7028, 7036), (8448, 8449),
  (8451, 8454), (8456, 8457), (8468, 8468), (8470, 8471), (8478, 8483), (8485, 8485),
  (8487, 8487), (8489, 8489), (8494, 8494), (8506, 8507), (8522, 8522), (8524, 8525),
  (8527, 8527), (8586, 8587), (8597, 8601), (8604, 8607), (8609, 8610), (8612, 8613),
  (8615, 8621), (8623, 8653), (8656, 8657), (8659, 8659), (8661, 8691), (8960, 8967),
  (8972, 8991), (8994, 9000), (9003, 9083), (9085, 9114), (9140, 9179), (9186, 9254),
  (9280, 9290), (9372, 9449), (9472, 9654), (9656, 9664), (9666, 9719), (9728, 9838),
  (9840, 10087), (10132, 10175), (10240, 10495), (11008, 11055), (11077, 11078), (11085, 11123),
  (11126, 11157), (11159, 11263), (11493, 11498), (11856, 11857), (11904, 11929), (11931, 12019),
  (12032, 12245), (12272, 12283), (12292, 12292), (12306, 12307), (12320, 12320), (12342, 12343),
  (12350, 12351), (12688, 12689), (12694, 12703), (12736, 12771), (12800, 12830), (12842, 12871),
  (12880, 12880), (12896, 12927), (12938, 12976), (12992, 13311), (19904, 19967), (42128, 42182),
  (43048, 43051), (43062, 43063), (43065, 43065), (43639, 43641), (64832, 64847), (64975, 64975),
  (65021, 65023), (65508, 65508), (65512, 65512), (65517, 65518), (65532, 65533), (65847, 65855),
  (65913, 65929), (65932, 65934), (65936, 65948), (65952, 65952), (66000, 66044), (67703, 67704),
  (68296, 68296), (71487, 71487), (73685, 73692), (73697, 73713), (92988, 92991), (92997, 92997),
  (113820, 113820), (118608, 118723), (118784, 119029), (119040, 119078), (119081, 119140),
  (119146, 119148), (119171, 119172), (119180, 119209), (119214, 119274), (119296, 119361),
  (119365, 119365), (119552, 119638), (120832, 121343), (121399, 121402), (121453, 121460),
  (121462, 121475), (121477, 121478), (123215, 123215), (126124, 126124), (126254, 126254),
  (126976, 127019), (127024, 127123), (127136, 127150), (127153, 127167), (127169, 127183),
  (127185, 127221), (127245, 127405), (127462, 127490), (127504, 127547), (127552, 127560),
  (127568, 127569), (127584, 127589), (127744, 127994), (128000, 128727), (128733, 128748),
  (128752, 128764), (128768, 128883), (128896, 128984), (128992, 129003), (129008, 129008),
  (129024, 129035), (129040, 129095), (129104, 129113), (129120, 129159), (129168, 129197),
  (129200, 129201), (129280, 129619), (129632, 129645), (129648, 129652), (129656, 129660),
  (129664, 129670), (129680, 129708), (129712, 129722), (129728, 129733), (129744, 129753),
  (129760, 129767), (129776, 129782), (129792, 129938), (129940, 129994)]

end CodeAtlas.Text.Category
