import FormulaEngine.Text.CharSet

/-! The characters that may stand in an identifier: those with the property Alphabetic and those of
the number categories Nd, Nl and No, from the character database of version 17.0. -/

namespace FormulaEngine

/-- The property Alphabetic. -/
def alphabetic : CharSet where
  boundaries := [
    65, 91, 97, 123, 170, 171, 181, 182, 186, 187, 192, 215, 216, 247, 248, 706, 710, 722, 736,
    741, 748, 749, 750, 751, 837, 838, 867, 885, 886, 888, 890, 894, 895, 896, 902, 903, 904,
    907, 908, 909, 910, 930, 931, 1014, 1015, 1154, 1162, 1328, 1329, 1367, 1369, 1370, 1376,
    1417, 1456, 1470, 1471, 1472, 1473, 1475, 1476, 1478, 1479, 1480, 1488, 1515, 1519, 1523,
    1552, 1563, 1568, 1624, 1625, 1632, 1646, 1748, 1749, 1757, 1761, 1769, 1773, 1776, 1786,
    1789, 1791, 1792, 1808, 1856, 1869, 1970, 1994, 2027, 2036, 2038, 2042, 2043, 2048, 2072,
    2074, 2093, 2112, 2137, 2144, 2155, 2160, 2184, 2185, 2192, 2199, 2200, 2208, 2250, 2260,
    2272, 2275, 2282, 2288, 2364, 2365, 2381, 2382, 2385, 2389, 2404, 2417, 2436, 2437, 2445,
    2447, 2449, 2451, 2473, 2474, 2481, 2482, 2483, 2486, 2490, 2493, 2501, 2503, 2505, 2507,
    2509, 2510, 2511, 2519, 2520, 2524, 2526, 2527, 2532, 2544, 2546, 2556, 2557, 2561, 2564,
    2565, 2571, 2575, 2577, 2579, 2601, 2602, 2609, 2610, 2612, 2613, 2615, 2616, 2618, 2622,
    2627, 2631, 2633, 2635, 2637, 2641, 2642, 2649, 2653, 2654, 2655, 2672, 2678, 2689, 2692,
    2693, 2702, 2703, 2706, 2707, 2729, 2730, 2737, 2738, 2740, 2741, 2746, 2749, 2758, 2759,
    2762, 2763, 2765, 2768, 2769, 2784, 2788, 2809, 2813, 2817, 2820, 2821, 2829, 2831, 2833,
    2835, 2857, 2858, 2865, 2866, 2868, 2869, 2874, 2877, 2885, 2887, 2889, 2891, 2893, 2902,
    2904, 2908, 2910, 2911, 2916, 2929, 2930, 2946, 2948, 2949, 2955, 2958, 2961, 2962, 2966,
    2969, 2971, 2972, 2973, 2974, 2976, 2979, 2981, 2984, 2987, 2990, 3002, 3006, 3011, 3014,
    3017, 3018, 3021, 3024, 3025, 3031, 3032, 3072, 3085, 3086, 3089, 3090, 3113, 3114, 3130,
    3133, 3141, 3142, 3145, 3146, 3149, 3157, 3159, 3160, 3163, 3164, 3166, 3168, 3172, 3200,
    3204, 3205, 3213, 3214, 3217, 3218, 3241, 3242, 3252, 3253, 3258, 3261, 3269, 3270, 3273,
    3274, 3277, 3285, 3287, 3292, 3295, 3296, 3300, 3313, 3316, 3328, 3341, 3342, 3345, 3346,
    3387, 3389, 3397, 3398, 3401, 3402, 3405, 3406, 3407, 3412, 3416, 3423, 3428, 3450, 3456,
    3457, 3460, 3461, 3479, 3482, 3506, 3507, 3516, 3517, 3518, 3520, 3527, 3535, 3541, 3542,
    3543, 3544, 3552, 3570, 3572, 3585, 3643, 3648, 3655, 3661, 3662, 3713, 3715, 3716, 3717,
    3718, 3723, 3724, 3748, 3749, 3750, 3751, 3770, 3771, 3774, 3776, 3781, 3782, 3783, 3789,
    3790, 3804, 3808, 3840, 3841, 3904, 3912, 3913, 3949, 3953, 3972, 3976, 3992, 3993, 4029,
    4096, 4151, 4152, 4153, 4155, 4160, 4176, 4240, 4250, 4254, 4256, 4294, 4295, 4296, 4301,
    4302, 4304, 4347, 4348, 4681, 4682, 4686, 4688, 4695, 4696, 4697, 4698, 4702, 4704, 4745,
    4746, 4750, 4752, 4785, 4786, 4790, 4792, 4799, 4800, 4801, 4802, 4806, 4808, 4823, 4824,
    4881, 4882, 4886, 4888, 4955, 4992, 5008, 5024, 5110, 5112, 5118, 5121, 5741, 5743, 5760,
    5761, 5787, 5792, 5867, 5870, 5881, 5888, 5908, 5919, 5940, 5952, 5972, 5984, 5997, 5998,
    6001, 6002, 6004, 6016, 6068, 6070, 6089, 6103, 6104, 6108, 6109, 6176, 6265, 6272, 6315,
    6320, 6390, 6400, 6431, 6432, 6444, 6448, 6457, 6480, 6510, 6512, 6517, 6528, 6572, 6576,
    6602, 6656, 6684, 6688, 6751, 6753, 6773, 6823, 6824, 6847, 6849, 6860, 6863, 6912, 6964,
    6965, 6980, 6981, 6989, 7040, 7082, 7084, 7088, 7098, 7142, 7143, 7154, 7168, 7223, 7245,
    7248, 7258, 7294, 7296, 7307, 7312, 7355, 7357, 7360, 7401, 7405, 7406, 7412, 7413, 7415,
    7418, 7419, 7424, 7616, 7635, 7669, 7680, 7958, 7960, 7966, 7968, 8006, 8008, 8014, 8016,
    8024, 8025, 8026, 8027, 8028, 8029, 8030, 8031, 8062, 8064, 8117, 8118, 8125, 8126, 8127,
    8130, 8133, 8134, 8141, 8144, 8148, 8150, 8156, 8160, 8173, 8178, 8181, 8182, 8189, 8305,
    8306, 8319, 8320, 8336, 8349, 8450, 8451, 8455, 8456, 8458, 8468, 8469, 8470, 8473, 8478,
    8484, 8485, 8486, 8487, 8488, 8489, 8490, 8494, 8495, 8506, 8508, 8512, 8517, 8522, 8526,
    8527, 8544, 8585, 9398, 9450, 11264, 11493, 11499, 11503, 11506, 11508, 11520, 11558, 11559,
    11560, 11565, 11566, 11568, 11624, 11631, 11632, 11648, 11671, 11680, 11687, 11688, 11695,
    11696, 11703, 11704, 11711, 11712, 11719, 11720, 11727, 11728, 11735, 11736, 11743, 11744,
    11776, 11823, 11824, 12293, 12296, 12321, 12330, 12337, 12342, 12344, 12349, 12353, 12439,
    12445, 12448, 12449, 12539, 12540, 12544, 12549, 12592, 12593, 12687, 12704, 12736, 12784,
    12800, 13312, 19904, 19968, 42125, 42192, 42238, 42240, 42509, 42512, 42528, 42538, 42540,
    42560, 42607, 42612, 42620, 42623, 42736, 42775, 42784, 42786, 42889, 42891, 42973, 42993,
    43014, 43015, 43048, 43072, 43124, 43136, 43204, 43205, 43206, 43250, 43256, 43259, 43260,
    43261, 43264, 43274, 43307, 43312, 43347, 43360, 43389, 43392, 43443, 43444, 43456, 43471,
    43472, 43488, 43504, 43514, 43519, 43520, 43575, 43584, 43598, 43616, 43639, 43642, 43711,
    43712, 43713, 43714, 43715, 43739, 43742, 43744, 43760, 43762, 43766, 43777, 43783, 43785,
    43791, 43793, 43799, 43808, 43815, 43816, 43823, 43824, 43867, 43868, 43882, 43888, 44011,
    44032, 55204, 55216, 55239, 55243, 55292, 63744, 64110, 64112, 64218, 64256, 64263, 64275,
    64280, 64285, 64297, 64298, 64311, 64312, 64317, 64318, 64319, 64320, 64322, 64323, 64325,
    64326, 64434, 64467, 64830, 64848, 64912, 64914, 64968, 65008, 65020, 65136, 65141, 65142,
    65277, 65313, 65339, 65345, 65371, 65382, 65471, 65474, 65480, 65482, 65488, 65490, 65496,
    65498, 65501, 65536, 65548, 65549, 65575, 65576, 65595, 65596, 65598, 65599, 65614, 65616,
    65630, 65664, 65787, 65856, 65909, 66176, 66205, 66208, 66257, 66304, 66336, 66349, 66379,
    66384, 66427, 66432, 66462, 66464, 66500, 66504, 66512, 66513, 66518, 66560, 66718, 66736,
    66772, 66776, 66812, 66816, 66856, 66864, 66916, 66928, 66939, 66940, 66955, 66956, 66963,
    66964, 66966, 66967, 66978, 66979, 66994, 66995, 67002, 67003, 67005, 67008, 67060, 67072,
    67383, 67392, 67414, 67424, 67432, 67456, 67462, 67463, 67505, 67506, 67515, 67584, 67590,
    67592, 67593, 67594, 67638, 67639, 67641, 67644, 67645, 67647, 67670, 67680, 67703, 67712,
    67743, 67808, 67827, 67828, 67830, 67840, 67862, 67872, 67898, 67904, 67930, 67968, 68024,
    68030, 68032, 68096, 68100, 68101, 68103, 68108, 68116, 68117, 68120, 68121, 68150, 68192,
    68221, 68224, 68253, 68288, 68296, 68297, 68325, 68352, 68406, 68416, 68438, 68448, 68467,
    68480, 68498, 68608, 68681, 68736, 68787, 68800, 68851, 68864, 68904, 68938, 68966, 68969,
    68970, 68975, 68998, 69248, 69290, 69291, 69293, 69296, 69298, 69314, 69320, 69370, 69373,
    69376, 69405, 69415, 69416, 69424, 69446, 69488, 69506, 69552, 69573, 69600, 69623, 69632,
    69702, 69745, 69750, 69760, 69817, 69826, 69827, 69840, 69865, 69888, 69939, 69956, 69960,
    69968, 70003, 70006, 70007, 70016, 70080, 70081, 70085, 70094, 70096, 70106, 70107, 70108,
    70109, 70144, 70162, 70163, 70197, 70199, 70200, 70206, 70210, 70272, 70279, 70280, 70281,
    70282, 70286, 70287, 70302, 70303, 70313, 70320, 70377, 70400, 70404, 70405, 70413, 70415,
    70417, 70419, 70441, 70442, 70449, 70450, 70452, 70453, 70458, 70461, 70469, 70471, 70473,
    70475, 70477, 70480, 70481, 70487, 70488, 70493, 70500, 70528, 70538, 70539, 70540, 70542,
    70543, 70544, 70582, 70583, 70593, 70594, 70595, 70597, 70598, 70599, 70603, 70604, 70606,
    70609, 70610, 70611, 70612, 70656, 70722, 70723, 70726, 70727, 70731, 70751, 70754, 70784,
    70850, 70852, 70854, 70855, 70856, 71040, 71094, 71096, 71103, 71128, 71134, 71168, 71231,
    71232, 71233, 71236, 71237, 71296, 71350, 71352, 71353, 71424, 71451, 71453, 71467, 71488,
    71495, 71680, 71737, 71840, 71904, 71935, 71943, 71945, 71946, 71948, 71956, 71957, 71959,
    71960, 71990, 71991, 71993, 71995, 71997, 71999, 72003, 72096, 72104, 72106, 72152, 72154,
    72160, 72161, 72162, 72163, 72165, 72192, 72243, 72245, 72255, 72272, 72344, 72349, 72350,
    72368, 72441, 72544, 72552, 72640, 72673, 72704, 72713, 72714, 72759, 72760, 72767, 72768,
    72769, 72818, 72848, 72850, 72872, 72873, 72887, 72960, 72967, 72968, 72970, 72971, 73015,
    73018, 73019, 73020, 73022, 73023, 73026, 73027, 73028, 73030, 73032, 73056, 73062, 73063,
    73065, 73066, 73103, 73104, 73106, 73107, 73111, 73112, 73113, 73136, 73180, 73440, 73463,
    73472, 73489, 73490, 73531, 73534, 73537, 73648, 73649, 73728, 74650, 74752, 74863, 74880,
    75076, 77712, 77809, 77824, 78896, 78913, 78919, 78944, 82939, 82944, 83527, 90368, 90415,
    92160, 92729, 92736, 92767, 92784, 92863, 92880, 92910, 92928, 92976, 92992, 92996, 93027,
    93048, 93053, 93072, 93504, 93549, 93760, 93824, 93856, 93881, 93883, 93908, 93952, 94027,
    94031, 94088, 94095, 94112, 94176, 94178, 94179, 94180, 94192, 94199, 94208, 101590, 101631,
    101663, 101760, 101875, 110576, 110580, 110581, 110588, 110589, 110591, 110592, 110883,
    110898, 110899, 110928, 110931, 110933, 110934, 110948, 110952, 110960, 111356, 113664,
    113771, 113776, 113789, 113792, 113801, 113808, 113818, 113822, 113823, 119808, 119893,
    119894, 119965, 119966, 119968, 119970, 119971, 119973, 119975, 119977, 119981, 119982,
    119994, 119995, 119996, 119997, 120004, 120005, 120070, 120071, 120075, 120077, 120085,
    120086, 120093, 120094, 120122, 120123, 120127, 120128, 120133, 120134, 120135, 120138,
    120145, 120146, 120486, 120488, 120513, 120514, 120539, 120540, 120571, 120572, 120597,
    120598, 120629, 120630, 120655, 120656, 120687, 120688, 120713, 120714, 120745, 120746,
    120771, 120772, 120780, 122624, 122655, 122661, 122667, 122880, 122887, 122888, 122905,
    122907, 122914, 122915, 122917, 122918, 122923, 122928, 122990, 123023, 123024, 123136,
    123181, 123191, 123198, 123214, 123215, 123536, 123566, 123584, 123628, 124112, 124140,
    124368, 124398, 124400, 124401, 124608, 124639, 124640, 124662, 124670, 124672, 124896,
    124903, 124904, 124908, 124909, 124911, 124912, 124927, 124928, 125125, 125184, 125252,
    125255, 125256, 125259, 125260, 126464, 126468, 126469, 126496, 126497, 126499, 126500,
    126501, 126503, 126504, 126505, 126515, 126516, 126520, 126521, 126522, 126523, 126524,
    126530, 126531, 126535, 126536, 126537, 126538, 126539, 126540, 126541, 126544, 126545,
    126547, 126548, 126549, 126551, 126552, 126553, 126554, 126555, 126556, 126557, 126558,
    126559, 126560, 126561, 126563, 126564, 126565, 126567, 126571, 126572, 126579, 126580,
    126584, 126585, 126589, 126590, 126591, 126592, 126602, 126603, 126620, 126625, 126628,
    126629, 126634, 126635, 126652, 127280, 127306, 127312, 127338, 127344, 127370, 131072,
    173792, 173824, 178206, 178208, 183982, 183984, 191457, 191472, 192094, 194560, 195102,
    196608, 201547, 201552, 210042]

/-- The general categories Nd, Nl and No. -/
def numeric : CharSet where
  boundaries := [
    48, 58, 178, 180, 185, 186, 188, 191, 1632, 1642, 1776, 1786, 1984, 1994, 2406, 2416, 2534,
    2544, 2548, 2554, 2662, 2672, 2790, 2800, 2918, 2928, 2930, 2936, 3046, 3059, 3174, 3184,
    3192, 3199, 3302, 3312, 3416, 3423, 3430, 3449, 3558, 3568, 3664, 3674, 3792, 3802, 3872,
    3892, 4160, 4170, 4240, 4250, 4969, 4989, 5870, 5873, 6112, 6122, 6128, 6138, 6160, 6170,
    6470, 6480, 6608, 6619, 6784, 6794, 6800, 6810, 6992, 7002, 7088, 7098, 7232, 7242, 7248,
    7258, 8304, 8305, 8308, 8314, 8320, 8330, 8528, 8579, 8581, 8586, 9312, 9372, 9450, 9472,
    10102, 10132, 11517, 11518, 12295, 12296, 12321, 12330, 12344, 12347, 12690, 12694, 12832,
    12842, 12872, 12880, 12881, 12896, 12928, 12938, 12977, 12992, 42528, 42538, 42726, 42736,
    43056, 43062, 43216, 43226, 43264, 43274, 43472, 43482, 43504, 43514, 43600, 43610, 44016,
    44026, 65296, 65306, 65799, 65844, 65856, 65913, 65930, 65932, 66273, 66300, 66336, 66340,
    66369, 66370, 66378, 66379, 66513, 66518, 66720, 66730, 67672, 67680, 67705, 67712, 67751,
    67760, 67835, 67840, 67862, 67868, 68028, 68030, 68032, 68048, 68050, 68096, 68160, 68169,
    68221, 68223, 68253, 68256, 68331, 68336, 68440, 68448, 68472, 68480, 68521, 68528, 68858,
    68864, 68912, 68922, 68928, 68938, 69216, 69247, 69405, 69415, 69457, 69461, 69573, 69580,
    69714, 69744, 69872, 69882, 69942, 69952, 70096, 70106, 70113, 70133, 70384, 70394, 70736,
    70746, 70864, 70874, 71248, 71258, 71360, 71370, 71376, 71396, 71472, 71484, 71904, 71923,
    72016, 72026, 72688, 72698, 72784, 72813, 73040, 73050, 73120, 73130, 73184, 73194, 73552,
    73562, 73664, 73685, 74752, 74863, 90416, 90426, 92768, 92778, 92864, 92874, 93008, 93018,
    93019, 93026, 93552, 93562, 93824, 93847, 94196, 94199, 118000, 118010, 119488, 119508,
    119520, 119540, 119648, 119673, 120782, 120832, 123200, 123210, 123632, 123642, 124144,
    124154, 124401, 124411, 125127, 125136, 125264, 125274, 126065, 126124, 126125, 126128,
    126129, 126133, 126209, 126254, 126255, 126270, 127232, 127245, 130032, 130042]

def isAlphabetic (c : Char) : Bool := alphabetic.contains c

def isAlphanumeric (c : Char) : Bool := alphabetic.contains c || numeric.contains c

end FormulaEngine
