/-!
# Country codes

The countries of Recommendation T.35, Annex A, by their code. Germany and Yemen have two codes each;
codes without a country are absent.
-/

namespace H264.Country

/-- The name of the country with a code. -/
def name? : (code : Nat) → Option String
  | 0x00 => some "Japan"
  | 0x01 => some "Albania"
  | 0x02 => some "Algeria"
  | 0x03 => some "American Samoa"
  | 0x04 => some "Germany"
  | 0x05 => some "Anguilla"
  | 0x06 => some "Antigua and Barbuda"
  | 0x07 => some "Argentina"
  | 0x08 => some "Ascension"
  | 0x09 => some "Australia"
  | 0x0A => some "Austria"
  | 0x0B => some "Bahamas"
  | 0x0C => some "Bahrain"
  | 0x0D => some "Bangladesh"
  | 0x0E => some "Barbados"
  | 0x0F => some "Belgium"
  | 0x10 => some "Belize"
  | 0x11 => some "Benin"
  | 0x12 => some "Bermudas"
  | 0x13 => some "Bhutan"
  | 0x14 => some "Bolivia"
  | 0x15 => some "Botswana"
  | 0x16 => some "Brazil"
  | 0x17 => some "British Antarctic Territory"
  | 0x18 => some "British Indian Ocean Territory"
  | 0x19 => some "British Virgin Islands"
  | 0x1A => some "Brunei Darussalam"
  | 0x1B => some "Bulgaria"
  | 0x1C => some "Myanmar"
  | 0x1D => some "Burundi"
  | 0x1E => some "Byelorussia"
  | 0x1F => some "Cameroon"
  | 0x20 => some "Canada"
  | 0x21 => some "Cape Verde"
  | 0x22 => some "Cayman Islands"
  | 0x23 => some "Central African Republic"
  | 0x24 => some "Chad"
  | 0x25 => some "Chile"
  | 0x26 => some "China"
  | 0x27 => some "Colombia"
  | 0x28 => some "Comoros"
  | 0x29 => some "Congo"
  | 0x2A => some "Cook Islands"
  | 0x2B => some "Costa Rica"
  | 0x2C => some "Cuba"
  | 0x2D => some "Cyprus"
  | 0x2E => some "Czech and Slovak Federal Republic"
  | 0x2F => some "Cambodia"
  | 0x30 => some "Democratic People's Republic of Korea"
  | 0x31 => some "Denmark"
  | 0x32 => some "Djibouti"
  | 0x33 => some "Dominican Republic"
  | 0x34 => some "Dominica"
  | 0x35 => some "Ecuador"
  | 0x36 => some "Egypt"
  | 0x37 => some "El Salvador"
  | 0x38 => some "Equatorial Guinea"
  | 0x39 => some "Ethiopia"
  | 0x3A => some "Falkland Islands"
  | 0x3B => some "Fiji"
  | 0x3C => some "Finland"
  | 0x3D => some "France"
  | 0x3E => some "French Polynesia"
  | 0x3F => some "French Southern and Antarctic Lands"
  | 0x40 => some "Gabon"
  | 0x41 => some "Gambia"
  | 0x42 => some "Germany"
  | 0x43 => some "Angola"
  | 0x44 => some "Ghana"
  | 0x45 => some "Gibraltar"
  | 0x46 => some "Greece"
  | 0x47 => some "Grenada"
  | 0x48 => some "Guam"
  | 0x49 => some "Guatemala"
  | 0x4A => some "Guernsey"
  | 0x4B => some "Guinea"
  | 0x4C => some "Guinea Bissau"
  | 0x4D => some "Guyana"
  | 0x4E => some "Haiti"
  | 0x4F => some "Honduras"
  | 0x50 => some "Hong Kong"
  | 0x51 => some "Hungary"
  | 0x52 => some "Iceland"
  | 0x53 => some "India"
  | 0x54 => some "Indonesia"
  | 0x55 => some "Iran"
  | 0x56 => some "Iraq"
  | 0x57 => some "Ireland"
  | 0x58 => some "Israel"
  | 0x59 => some "Italy"
  | 0x5A => some "Côte d'Ivoire"
  | 0x5B => some "Jamaica"
  | 0x5C => some "Afghanistan"
  | 0x5D => some "Jersey"
  | 0x5E => some "Jordan"
  | 0x5F => some "Kenya"
  | 0x60 => some "Kiribati"
  | 0x61 => some "Republic of Korea"
  | 0x62 => some "Kuwait"
  | 0x63 => some "Lao People's Democratic Republic"
  | 0x64 => some "Lebanon"
  | 0x65 => some "Lesotho"
  | 0x66 => some "Liberia"
  | 0x67 => some "Libya"
  | 0x68 => some "Liechtenstein"
  | 0x69 => some "Luxembourg"
  | 0x6A => some "Macau"
  | 0x6B => some "Madagascar"
  | 0x6C => some "Malaysia"
  | 0x6D => some "Malawi"
  | 0x6E => some "Maldives"
  | 0x6F => some "Mali"
  | 0x70 => some "Malta"
  | 0x71 => some "Mauritania"
  | 0x72 => some "Mauritius"
  | 0x73 => some "Mexico"
  | 0x74 => some "Monaco"
  | 0x75 => some "Mongolia"
  | 0x76 => some "Montserrat"
  | 0x77 => some "Morocco"
  | 0x78 => some "Mozambique"
  | 0x79 => some "Nauru"
  | 0x7A => some "Nepal"
  | 0x7B => some "Netherlands"
  | 0x7C => some "Netherlands Antilles"
  | 0x7D => some "New Caledonia"
  | 0x7E => some "New Zealand"
  | 0x7F => some "Nicaragua"
  | 0x80 => some "Niger"
  | 0x81 => some "Nigeria"
  | 0x82 => some "Norway"
  | 0x83 => some "Oman"
  | 0x84 => some "Pakistan"
  | 0x85 => some "Panama"
  | 0x86 => some "Papua New Guinea"
  | 0x87 => some "Paraguay"
  | 0x88 => some "Peru"
  | 0x89 => some "Philippines"
  | 0x8A => some "Poland"
  | 0x8B => some "Portugal"
  | 0x8C => some "Puerto Rico"
  | 0x8D => some "Qatar"
  | 0x8E => some "Romania"
  | 0x8F => some "Rwanda"
  | 0x90 => some "Saint Kitts and Nevis"
  | 0x91 => some "Saint Croix"
  | 0x92 => some "Saint Helena and Ascension"
  | 0x93 => some "Saint Lucia"
  | 0x94 => some "San Marino"
  | 0x95 => some "Saint Thomas"
  | 0x96 => some "Sao Tome and Principe"
  | 0x97 => some "Saint Vincent and the Grenadines"
  | 0x98 => some "Saudi Arabia"
  | 0x99 => some "Senegal"
  | 0x9A => some "Seychelles"
  | 0x9B => some "Sierra Leone"
  | 0x9C => some "Singapore"
  | 0x9D => some "Solomon Islands"
  | 0x9E => some "Somalia"
  | 0x9F => some "South Africa"
  | 0xA0 => some "Spain"
  | 0xA1 => some "Sri Lanka"
  | 0xA2 => some "Sudan"
  | 0xA3 => some "Suriname"
  | 0xA4 => some "Swaziland"
  | 0xA5 => some "Sweden"
  | 0xA6 => some "Switzerland"
  | 0xA7 => some "Syria"
  | 0xA8 => some "Tanzania"
  | 0xA9 => some "Thailand"
  | 0xAA => some "Togo"
  | 0xAB => some "Tonga"
  | 0xAC => some "Trinidad and Tobago"
  | 0xAD => some "Tunisia"
  | 0xAE => some "Turkey"
  | 0xAF => some "Turks and Caicos Islands"
  | 0xB0 => some "Tuvalu"
  | 0xB1 => some "Uganda"
  | 0xB2 => some "Ukraine"
  | 0xB3 => some "United Arab Emirates"
  | 0xB4 => some "United Kingdom"
  | 0xB5 => some "United States"
  | 0xB6 => some "Burkina Faso"
  | 0xB7 => some "Uruguay"
  | 0xB8 => some "USSR"
  | 0xB9 => some "Vanuatu"
  | 0xBA => some "Vatican City State"
  | 0xBB => some "Venezuela"
  | 0xBC => some "Viet Nam"
  | 0xBD => some "Wallis and Futuna"
  | 0xBE => some "Western Samoa"
  | 0xBF => some "Yemen"
  | 0xC0 => some "Yemen"
  | 0xC1 => some "Yugoslavia"
  | 0xC2 => some "Zaire"
  | 0xC3 => some "Zambia"
  | 0xC4 => some "Zimbabwe"
  | _ => none

end H264.Country
