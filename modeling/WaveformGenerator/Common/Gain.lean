import WaveformGenerator.Common.Attenuation

/-!
# Attenuating samples (`common/attenuation.hpp`, `common/attenuation_gains.hpp`)

An attenuation is a gain of a table, a Q1.31 fraction by which samples are multiplied and rounded
half to even.
-/

namespace WaveformGenerator.Attenuation

def qBits : Int64 := 31

/-- The gain 1. -/
def unityQ31 : UInt32 := 0x80000000

/-- The gain of each tenth of a decibel. -/
def gainsQ31 : List UInt32 :=
  [2147483648, 2122901606, 2098600952, 2074578466, 2050830962, 2027355295, 2004148350,
    1981207054, 1958528364, 1936109276, 1913946816, 1892038048, 1870380067, 1848970004,
    1827805019, 1806882308, 1786199097, 1765752645, 1745540242, 1725559208, 1705806895,
    1686280685, 1666977990, 1647896251, 1629032938, 1610385552, 1591951621, 1573728702,
    1555714378, 1537906263, 1520301996, 1502899243, 1485695697, 1468689079, 1451877134,
    1435257634, 1418828376, 1402587182, 1386531899, 1370660400, 1354970580, 1339460360,
    1324127684, 1308970520, 1293986858, 1279174713, 1264532121, 1250057142, 1235747856,
    1221602367, 1207618800, 1193795302, 1180130041, 1166621204, 1153267001, 1140065663,
    1127015439, 1114114600, 1101361436, 1088754256, 1076291389, 1063971183, 1051792006,
    1039752242, 1027850297, 1016084592, 1004453568, 992955683, 981589413, 970353252, 959245710,
    948265315, 937410612, 926680161, 916072541, 905586346, 895220184, 884972684, 874842485,
    864828246, 854928639, 845142352, 835468087, 825904563, 816450512, 807104680, 797865829,
    788732735, 779704186, 770778986, 761955951, 753233914, 744611717, 736088217, 727662285,
    719332803, 711098669, 702958790, 694912087, 686957494, 679093957, 671320432, 663635891,
    656039314, 648529694, 641106036, 633767356, 626512681, 619341049, 612251511, 605243126,
    598314965, 591466110, 584695654, 578002698, 571386356, 564845750, 558380014, 551988291,
    545669734, 539423504, 533248774, 527144726, 521110550, 515145447, 509248626, 503419305,
    497656712, 491960082, 486328662, 480761704, 475258470, 469818231, 464440266, 459123863,
    453868315, 448672928, 443537011, 438459885, 433440876, 428479319, 423574557, 418725939,
    413932823, 409194573, 404510562, 399880168, 395302777, 390777784, 386304588, 381882595,
    377511222, 373189886, 368918017, 364695047, 360520418, 356393575, 352313971, 348281066,
    344294326, 340353221, 336457230, 332605836, 328798529, 325034803, 321314161, 317636108,
    314000157, 310405827, 306852641, 303340128, 299867822, 296435264, 293041997, 289687573,
    286371547, 283093479, 279852935, 276649485, 273482704, 270352174, 267257478, 264198207,
    261173955, 258184321, 255228910, 252307329, 249419191, 246564113, 243741717, 240951628,
    238193478, 235466900, 232771532, 230107019, 227473005, 224869143, 222295088, 219750497,
    217235034, 214748365, 212290161, 209860095, 207457847, 205083096, 202735529, 200414835,
    198120705, 195852836, 193610928, 191394682, 189203805, 187038007, 184897000, 182780502,
    180688231, 178619910, 176575265, 174554024, 172555921, 170580690, 168628069, 166697799,
    164789625, 162903294, 161038555, 159195162, 157372870, 155571438, 153790626, 152030200,
    150289924, 148569570, 146868908, 145187713, 143525763, 141882838, 140258718, 138653190,
    137066040, 135497058, 133946036, 132412768, 130897052, 129398686, 127917471, 126453212,
    125005714, 123574786, 122160237, 120761880, 119379530, 118013004, 116662120, 115326700,
    114006566, 112701544, 111411460, 110136144, 108875426, 107629139, 106397118, 105179201,
    103975224, 102785030, 101608459, 100445357, 99295568, 98158941, 97035325, 95924571, 94826532,
    93741061, 92668016, 91607254, 90558635, 89522018, 88497268, 87484249, 86482825, 85492864,
    84514235, 83546809, 82590456, 81645051, 80710468, 79786583, 78873273, 77970419, 77077899,
    76195595, 75323391, 74461172, 73608822, 72766228, 71933280, 71109867, 70295879, 69491209,
    68695749, 67909396, 67132043, 66363589, 65603931, 64852969, 64110604, 63376736, 62651268,
    61934105, 61225151, 60524313, 59831497, 59146611, 58469565, 57800270, 57138636, 56484575,
    55838001, 55198829, 54566973, 53942350, 53324877, 52714473, 52111055, 51514545, 50924863,
    50341930, 49765671, 49196008, 48632866, 48076170, 47525847, 46981823, 46444027, 45912386,
    45386832, 44867293, 44353701, 43845988, 43344088, 42847932, 42357456, 41872594, 41393282,
    40919457, 40451056, 39988017, 39530278, 39077778, 38630459, 38188260, 37751122, 37318989,
    36891802, 36469505, 36052042, 35639357, 35231397, 34828107, 34429433, 34035322, 33645723,
    33260584, 32879853, 32503480, 32131416, 31763611, 31400016, 31040583, 30685264, 30334013,
    29986782, 29643526, 29304200, 28968757, 28637155, 28309348, 27985293, 27664948, 27348270,
    27035217, 26725748, 26419821, 26117395, 25818432, 25522891, 25230733, 24941919, 24656411,
    24374172, 24095163, 23819348, 23546690, 23277153, 23010702, 22747301, 22486914, 22229509,
    21975050, 21723503, 21474836]

theorem gainsQ31_le : ∀ q31 ∈ gainsQ31, q31 ≤ unityQ31 := by
  have hall : (gainsQ31.all fun q31 => decide (q31 ≤ unityQ31)) = true := by decide +kernel
  exact fun q31 hmem => of_decide_eq_true (List.all_eq_true.mp hall q31 hmem)

/-- A Q1.31 fraction that is 1 at most. -/
structure Gain where
  q31 : UInt32
  bounded : q31 ≤ unityQ31
  deriving DecidableEq

theorem length_gainsQ31 : gainsQ31.length = maxTenths.toNat + 1 := by decide +kernel

theorem lt_length_gainsQ31 (attenuation : Tenths) :
    attenuation.value.toNat < gainsQ31.length := by
  rw [length_gainsQ31]
  exact Nat.lt_succ_of_le (UInt32.le_iff_toNat_le.mp attenuation.bounded)

/-- The table has a gain for each attenuation. -/
def Gain.of (attenuation : Tenths) : Gain :=
  ⟨gainsQ31.get ⟨attenuation.value.toNat, lt_length_gainsQ31 attenuation⟩,
    gainsQ31_le _ (List.get_mem _ _)⟩

/-! ## The arithmetic -/

/-- The floor of a product by the unity. -/
def quotientQ31 (product : Int64) : Int64 := product >>> qBits

def remainderQ31 (product : Int64) : Int64 :=
  product - quotientQ31 product * unityQ31.toUInt64.toInt64

/-- `round_q31`. -/
def roundQ31 (product : Int64) : Int64 :=
  let unity := unityQ31.toUInt64.toInt64
  let half := unity / 2
  let quotient := quotientQ31 product
  let remainder := remainderQ31 product
  let odd := quotient % 2 ≠ 0
  quotient + if half < remainder ∨ (remainder = half ∧ odd) then 1 else 0

/-- The product that `apply` rounds. -/
def product (gain : Gain) (sample : Int32) : Int64 :=
  sample.toInt64 * gain.q31.toUInt64.toInt64

def apply (gain : Gain) (sample : Int32) : Int32 := (roundQ31 (product gain sample)).toInt32

end WaveformGenerator.Attenuation
